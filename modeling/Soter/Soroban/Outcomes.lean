import Soter.Soroban.ExecuteOnce
import Soter.Soroban.Network
import Soter.Soroban.PackageIds

/-! What a record says of its transactions and what became of them on the chain. -/
namespace Soter.Soroban
open Soter.Tasks Soter.Runs Soter.JsNumbers List

variable {hash : PreparedTransaction → String}
section Chain
variable {k : Chain} {now now' : Time} {tx : PreparedTransaction} {q : NetworkQuery}

def Chain.Won (k : Chain) : Prop := ∃ tx ∈ k.sent, k.Succeeded tx

/-- Sent at `now`, the transaction gets through and may be applied. -/
def Chain.WouldCount (k : Chain) (now : Time) (tx : PreparedTransaction) : Prop :=
  k.weather.accepts = true ∧ (∀ entry ∈ k.applied, entry.1 ≠ tx) ∧ now ≤ tx.validUntil

theorem Chain.Settled.later (h : k.Settled now) (hle : now ≤ now') : k.Settled now' := by
  intro tx htx
  refine ⟨(h tx htx).1, fun hcan => (h tx htx).2 ?_⟩
  exact ⟨hcan.1, hcan.2.1, hle.trans hcan.2.2⟩

theorem Chain.Settled.not_canSucceed (h : k.Settled now) (hsound : k.Sound) : ¬ k.CanSucceed now tx :=
  fun hcan => (h tx (hsound.live tx hcan.1)).2 hcan

theorem Chain.Sound.served (h : k.Sound) : (serveNetwork hash q now k).2.Sound := by
  cases q with
  | rpc q =>
    cases q with
    | sendTransaction tx =>
      have hlive : ∀ tx' ∈ (if k.weather.accepts then k.live ++ [tx] else k.live),
          tx' ∈ k.live ∨ tx' = tx := by
        intro tx' htx'
        split at htx'
        · exact (mem_append.mp htx').imp id mem_singleton.mp
        · exact .inl htx'
      refine ⟨fun tx' htx' => ?_, fun entry hentry => ?_⟩
      · apply mem_append.mpr
        exact (hlive tx' htx').imp (h.live tx') mem_singleton.mpr
      · have hold := h.applied entry hentry
        simp only [serveNetwork]
        split
        · exact mem_append_left _ hold
        · exact hold
    | _ => exact h
  | event e =>
    cases e with
    | weather weather => exact ⟨h.live, h.applied⟩
    | apply tx outcome =>
      simp only [serveNetwork]
      split
      · rename_i hcan
        refine ⟨h.live, fun entry hentry => ?_⟩
        rcases mem_append.mp hentry with hold | hnew
        · exact h.applied entry hold
        · rw [mem_singleton.mp hnew]
          exact hcan.1
      · exact h

theorem sent_served (htx : tx ∈ k.sent) : tx ∈ (serveNetwork hash q now k).2.sent := by
  cases q with
  | rpc q =>
    cases q with
    | sendTransaction tx' => exact mem_append_left _ htx
    | _ => exact htx
  | event e =>
    cases e with
    | weather weather => exact htx
    | apply tx' outcome =>
      simp only [serveNetwork]
      split <;> exact htx

theorem succeeded_served (h : k.Succeeded tx) : (serveNetwork hash q now k).2.Succeeded tx := by
  cases q with
  | rpc q => cases q <;> exact h
  | event e =>
    cases e with
    | weather weather => exact h
    | apply tx' outcome =>
      simp only [serveNetwork]
      split
      · obtain ⟨retval, hentry⟩ := h
        exact ⟨retval, mem_append_left _ hentry⟩
      · exact h

theorem Chain.Won.served (h : k.Won) : (serveNetwork hash q now k).2.Won := by
  obtain ⟨tx, htx, hsuccess⟩ := h
  exact ⟨tx, sent_served htx, succeeded_served hsuccess⟩

theorem Chain.Settled.served (h : k.Settled now) (hsound : k.Sound)
    (hq : ∀ tx, q ≠ .rpc (.sendTransaction tx)) : (serveNetwork hash q now k).2.Settled now := by
  cases q with
  | rpc q =>
    cases q with
    | sendTransaction tx => exact absurd rfl (hq tx)
    | _ => exact h
  | event e =>
    cases e with
    | weather weather => exact h
    | apply tx outcome =>
      simp only [serveNetwork]
      rw [if_neg (h.not_canSucceed hsound)]
      exact h

theorem settled_sendTransaction (h : k.Settled now) (hsound : k.Sound) :
    (serveNetwork hash (.rpc (.sendTransaction tx)) now k).2.Settled now ↔ ¬ k.WouldCount now tx := by
  have hmem : tx ∈ (serveNetwork hash (.rpc (.sendTransaction tx)) now k).2.sent :=
    mem_append_right _ (mem_singleton_self tx)
  have hnot := @Chain.Settled.not_canSucceed k now tx h hsound
  have hlive : ∀ tx', tx' ∈ (serveNetwork hash (.rpc (.sendTransaction tx)) now k).2.live ↔
      tx' ∈ k.live ∨ k.weather.accepts = true ∧ tx' = tx := by
    intro tx'
    simp only [serveNetwork]
    split <;> simp_all
  constructor
  · rintro hsettled ⟨haccepts, hfresh, hin⟩
    exact (hsettled tx hmem).2 ⟨(hlive tx).mpr (.inr ⟨haccepts, rfl⟩), hfresh, hin⟩
  · intro hlate tx' htx'
    have hold : tx' ∈ k.sent → ¬ k.Succeeded tx' := fun hsent => (h tx' hsent).1
    refine ⟨?_, ?_⟩
    · rintro ⟨retval, hentry⟩
      have hsent := hsound.live _ (hsound.applied _ hentry)
      exact hold hsent ⟨retval, hentry⟩
    · rintro ⟨hin, hfresh, htime⟩
      rcases (hlive tx').mp hin with hin | ⟨haccepts, rfl⟩
      · exact h.not_canSucceed hsound ⟨hin, hfresh, htime⟩
      · exact hlate ⟨haccepts, hfresh, htime⟩

end Chain
variable {s : Store Chain}
section Laws

abbrev NetworkSystem := System Chain NetworkQuery.Reply ChainEvent
abbrev NetworkOp := LifecycleOp ChainEvent
abbrev NetworkTransition := Transition NetworkSystem (Turn NetworkOp)

def Store.givenUp {K : Type} (s : Store K) : Prop :=
  s.transaction.status = .failed ∨ s.transaction.status = .expired

/-- What a transition leaves behind: a confirmed record has a transaction that succeeded, a failed or
expired one has none that did or may, and a new transaction was sent only while no other could succeed. -/
structure TrueToChain (t : NetworkTransition) : Prop where
  confirmed : t.post.store.transaction.status = .confirmed → t.post.store.chain.Won
  givenUp : t.post.store.givenUp → t.post.store.chain.Settled t.post.store.now
  resent : ∀ tx, t.pre.asked t.label = some (.chain (.rpc (.sendTransaction tx))) →
    tx ∉ t.pre.store.chain.sent →
      ∀ tx' ∈ t.pre.store.chain.sent, ¬ t.pre.store.chain.CanSucceed t.pre.store.now tx'

/-- The record is failed or expired on a settled chain only, for such a record nothing is sent that may
be applied, and no new transaction is sent while another may succeed. -/
structure Justified (q : Query NetworkQuery) (s : Store Chain) : Prop where
  written : ∀ id status, q.sets = some (id, status) → s.transaction.id = id →
    status = .failed ∨ status = .expired → s.chain.Settled s.now
  expired : ∀ createdBefore now, q = .expire createdBefore now → s.transaction.unfinished = true →
    s.transaction.createdAt < createdBefore → s.chain.Settled s.now
  late : ∀ tx, q = .chain (.rpc (.sendTransaction tx)) → s.givenUp → ¬ s.chain.WouldCount s.now tx
  resent : ∀ tx, q = .chain (.rpc (.sendTransaction tx)) → tx ∉ s.chain.sent →
    ∀ tx' ∈ s.chain.sent, ¬ s.chain.CanSucceed s.now tx'

variable {q : Query NetworkQuery}

theorem chain_update {K : Type} (s : Store K) (id : String) (f : SorobanTransaction String → SorobanTransaction String) :
    (s.update id f).2.chain = s.chain ∧ (s.update id f).2.now = s.now := by
  rw [Store.update]
  split <;> exact ⟨rfl, rfl⟩

theorem chain_perform {C K : Type} {ChainReply : C → Type} {serve : (c : C) → Time → K → ChainReply c × K}
    (q : Query C) (s : Store K) (hq : ∀ c, q ≠ .chain c) :
    (perform serve q s).2.chain = s.chain ∧ s.now ≤ (perform serve q s).2.now := by
  have hupdate : ∀ id f, (s.update id f).2.chain = s.chain ∧ s.now ≤ (s.update id f).2.now :=
    fun id f => ⟨(chain_update s id f).1, (chain_update s id f).2.ge⟩
  cases q with
  | chain c => exact absurd rfl (hq c)
  | updateTransactionStatus id status now | confirm id txHash attemptNumber now | recordError id error
  | resetForRetry id forceRetry now => exact hupdate id _
  | expire createdBefore now =>
    simp only [perform]
    split <;> exact ⟨rfl, le_rfl⟩
  | elapse d => exact ⟨rfl, Int.le_add_of_nonneg_right (Int.natCast_nonneg d)⟩
  | sleepUntil t => exact ⟨rfl, le_max_left _ _⟩
  | _ => exact ⟨rfl, le_rfl⟩

theorem sound_perform (h : s.chain.Sound) : (perform (serveNetwork hash) q s).2.chain.Sound := by
  by_cases hq : ∃ c, q = .chain c
  · obtain ⟨c, rfl⟩ := hq
    exact h.served
  · rw [(chain_perform q s fun c hc => hq ⟨c, hc⟩).1]
    exact h

theorem won_perform (h : s.chain.Won) : (perform (serveNetwork hash) q s).2.chain.Won := by
  by_cases hq : ∃ c, q = .chain c
  · obtain ⟨c, rfl⟩ := hq
    exact h.served
  · rw [(chain_perform q s fun c hc => hq ⟨c, hc⟩).1]
    exact h

theorem settled_perform (h : s.chain.Settled s.now) (hsound : s.chain.Sound)
    (hq : ∀ tx, q ≠ .chain (.rpc (.sendTransaction tx))) :
    (perform (serveNetwork hash) q s).2.chain.Settled (perform (serveNetwork hash) q s).2.now := by
  by_cases hchain : ∃ c, q = .chain c
  · obtain ⟨c, rfl⟩ := hchain
    exact h.served hsound fun tx hc => hq tx (congrArg _ hc)
  · have hsame := @chain_perform _ _ _ (serveNetwork hash) q s fun c hc => hchain ⟨c, hc⟩
    rw [hsame.1]
    exact h.later hsame.2

def Store.Honest (s : Store Chain) : Prop := s.givenUp → s.chain.Settled s.now

theorem givenUp_perform (h : (perform (serveNetwork hash) q s).2.givenUp) :
    s.givenUp ∨ (∃ id status, q.sets = some (id, status) ∧ s.transaction.id = id ∧ (status = .failed ∨ status = .expired)) ∨
      ∃ createdBefore now, q = .expire createdBefore now ∧ s.transaction.unfinished = true ∧
        s.transaction.createdAt < createdBefore := by
  rcases @status_perform_cases _ _ _ (serveNetwork hash) q s with hsame | hwritten | hexpired | hreset
  · rw [Store.givenUp, hsame] at h
    exact .inl h
  · obtain ⟨id, hsets, hid⟩ := hwritten
    exact .inr (.inl ⟨id, _, hsets, hid, h⟩)
  · obtain ⟨createdBefore, now, hq, hunfinished, hold, -⟩ := hexpired
    exact .inr (.inr ⟨createdBefore, now, hq, hunfinished, hold⟩)
  · obtain ⟨id, forceRetry, now, -, hpending⟩ := hreset
    rw [Store.givenUp, hpending] at h
    rcases h with h | h <;> cases h

/-- One request of an honest record leaves it honest and its transactions apart if and only if it is
justified. -/
theorem honest_perform_iff (h : s.Honest) (hsound : s.chain.Sound) : ((perform (serveNetwork hash) q s).2.Honest ∧
      ∀ tx, q = .chain (.rpc (.sendTransaction tx)) → tx ∉ s.chain.sent →
        ∀ tx' ∈ s.chain.sent, ¬ s.chain.CanSucceed s.now tx') ↔ Justified q s := by
  constructor
  · rintro ⟨hafter, hresent⟩
    refine ⟨fun id status hsets hid hgiven => ?_, fun createdBefore now hq hunfinished hold => ?_,
      fun tx hq hgiven => ?_, hresent⟩
    · have hstatus : (perform (serveNetwork hash) q s).2.transaction.status =
          if s.transaction.id = id then status else s.transaction.status :=
        status_perform_of_sets hsets
      rw [if_pos hid] at hstatus
      rw [← hstatus] at hgiven
      have hsettled := hafter hgiven
      -- a write leaves the chain and the clock alone
      cases q <;> simp only [Query.sets, reduceCtorEq] at hsets
      all_goals
        rw [perform, (chain_update _ _ _).1, (chain_update _ _ _).2] at hsettled
        exact hsettled
    · subst hq
      have hedit : (Query.expire createdBefore now : Query NetworkQuery).edit s =
          some (setExpired now) := if_pos ⟨hunfinished, hold⟩
      have hgiven : (perform (serveNetwork hash) (.expire createdBefore now) s).2.givenUp := by
        rw [Store.givenUp, transaction_perform, hedit]
        exact .inr rfl
      have hsettled := hafter hgiven
      simp only [perform] at hsettled
      split at hsettled <;> exact hsettled
    · subst hq
      have hsent : (serveNetwork hash (.rpc (.sendTransaction tx)) s.now s.chain).2.Settled s.now :=
        hafter hgiven
      exact (settled_sendTransaction (h hgiven) hsound).mp hsent
  · intro hjust
    refine ⟨fun hgiven => ?_, hjust.resent⟩
    by_cases hsend : ∃ tx, q = .chain (.rpc (.sendTransaction tx))
    · obtain ⟨tx, rfl⟩ := hsend
      -- a transaction that is sent leaves the record as it was
      have hbefore : s.givenUp := hgiven
      change (serveNetwork hash (.rpc (.sendTransaction tx)) s.now s.chain).2.Settled s.now
      exact (settled_sendTransaction (h hbefore) hsound).mpr (hjust.late tx rfl hbefore)
    · have hsettled : s.chain.Settled s.now := by
        rcases givenUp_perform hgiven with hbefore | hwritten | hexpired
        · exact h hbefore
        · obtain ⟨id, status, hsets, hid, hstatus⟩ := hwritten
          exact hjust.written id status hsets hid hstatus
        · obtain ⟨createdBefore, now, hq, hunfinished, hold⟩ := hexpired
          exact hjust.expired createdBefore now hq hunfinished hold
      exact settled_perform hsettled hsound fun tx hq => hsend ⟨tx, hq⟩

end Laws
variable {s' : Store Chain} {i : ℕ} {σ τ : Stage SendStage} {stages : List (Stage SendStage)} {id : String}
section Evidence
variable {q : Query NetworkQuery}

/-- What is taken for a success is one: by the adapter that was shown its receipt, and by the record. -/
structure Evidence (stages : List (Stage SendStage)) (s : Store Chain) : Prop where
  sound : s.chain.Sound
  won : ∀ (i : ℕ) (id : String), stages[i]? = some (.working id .won) → s.chain.Won
  confirmed : s.transaction.status = .confirmed → s.chain.Won

theorem Evidence.start (h : Evidence stages s) : Evidence (stages ++ [.idle]) s := by
  refine ⟨h.sound, fun i id hi => ?_, h.confirmed⟩
  rcases getElem?_snoc hi with hi | ⟨-, hσ⟩
  · exact h.won i id hi
  · cases hσ

theorem won_of_receipt {k : Chain} (h : k.Sound) {text : String} {retval : Option Retval}
    (hreceipt : k.receipt hash text = .success retval) : k.Won := by
  rw [Chain.receipt] at hreceipt
  split at hreceipt
  · cases hreceipt
  · rename_i tx result hfind
    have hentry := mem_of_find?_eq_some hfind
    exact ⟨tx, h.live tx (h.applied _ hentry), result, hentry⟩
  · cases hreceipt

theorem SendStage.after_getTransaction (a : SendStage) (text : String) (reply : (RpcQuery.getTransaction text).Reply) :
    a.after (.getTransaction text) reply = a ∨ a.after (.getTransaction text) reply = .won := by
  cases (reply : Except String Receipt) with
  | error e => exact .inl rfl
  | ok receipt =>
    cases receipt with
    | success retval => exact .inr rfl
    | notFound | failed retval => exact .inl rfl

theorem SendStage.receipt_of_won {a : SendStage} {r : RpcQuery} {reply : r.Reply} (h : a.after r reply = .won) :
    a = .won ∨ ∃ text, r = .getTransaction text ∧ ∃ retval, HEq reply
      (Except.ok (Receipt.success retval) : Except String Receipt) := by
  cases r with
  | getTransaction text =>
    cases (reply : Except String Receipt) with
    | error e => exact .inl h
    | ok receipt =>
      cases receipt with
      | success retval => exact .inr ⟨text, rfl, retval, HEq.rfl⟩
      | notFound | failed retval => exact .inl h
  | sendTransaction tx => cases h
  | getAccount publicKey | simulateTransaction tx => exact .inl h

theorem Evidence.won_after (h : Evidence stages s) (hi : stages[i]? = some σ)
    (hallowed : σ.mayAsk sendingOnNetwork SendStage.ends NetworkQuery.event q)
    (hτ : σ.after sendingOnNetwork .fresh q (perform (serveNetwork hash) q s).1 = .working id .won) :
    (perform (serveNetwork hash) q s).2.chain.Won := by
  have hkept : ∀ id, σ = .working id .won → (perform (serveNetwork hash) q s).2.chain.Won := by
    rintro id rfl
    exact won_perform (h.won i id hi)
  cases q with
  | chain c =>
    cases σ with
    | working id' a =>
      cases c with
      | rpc r =>
        have hwon : a.after r (serveNetwork hash (.rpc r) s.now s.chain).1 = .won :=
          (Stage.working.inj hτ).2
        rcases SendStage.receipt_of_won hwon with rfl | ⟨text, rfl, retval, hreply⟩
        · exact hkept id' rfl
        · have hreply : s.chain.weather.receipt.map (fun _ => s.chain.receipt hash text) =
              .ok (.success retval) := eq_of_heq hreply
          cases hreceived : s.chain.weather.receipt with
          | error e =>
            rw [hreceived] at hreply
            cases hreply
          | ok _ =>
            rw [hreceived] at hreply
            exact won_of_receipt h.sound (Except.ok.inj hreply)
      | event e => exact hallowed.elim
    | idle | stray id' | ended => cases hτ
  | updateTransactionStatus id' status now =>
    simp only [Stage.after] at hτ
    split at hτ <;> cases hτ
  | confirm id' txHash attemptNumber now =>
    simp only [Stage.after] at hτ
    split at hτ <;> cases hτ
  | recordError id' error => cases hτ
  | _ => exact hkept id hτ

theorem Evidence.confirmed_after (h : Evidence stages s) (hi : stages[i]? = some σ)
    (hallowed : σ.mayAsk sendingOnNetwork SendStage.ends NetworkQuery.event q)
    (hconfirmed : (perform (serveNetwork hash) q s).2.transaction.status = .confirmed) :
    (perform (serveNetwork hash) q s).2.chain.Won := by
  rcases @status_perform_cases _ _ _ (serveNetwork hash) q s with hsame | hwritten | hexpired | hreset
  · exact won_perform (h.confirmed (hsame.symm.trans hconfirmed))
  · obtain ⟨id, hsets, -⟩ := hwritten
    rw [hconfirmed] at hsets
    cases q with
    | confirm id' txHash attemptNumber now =>
      cases σ with
      | working id'' a =>
        have hwon : a = .won := hallowed.2
        rw [hwon] at hi
        exact won_perform (h.won i id'' hi)
      | idle => cases hallowed
      | stray id'' => rcases hallowed with hq | hq | ⟨error, hq⟩ <;> cases hq
      | ended =>
        obtain ⟨id'', hq⟩ := hallowed
        cases hq
    | updateTransactionStatus id' status now =>
      cases hsets
      cases σ with
      | idle | working id'' a => cases hallowed
      | stray id'' => rcases hallowed with hq | hq | ⟨error, hq⟩ <;> cases hq
      | ended =>
        obtain ⟨id'', hq⟩ := hallowed
        cases hq
    | recordError id' error =>
      have hstatus : error.status = .confirmed := (Prod.mk.inj (Option.some.inj hsets)).2
      rw [ErrorRecord.status] at hstatus
      split at hstatus <;> cases hstatus
    | _ => cases hsets
  · obtain ⟨createdBefore, now, -, -, -, hexpired⟩ := hexpired
    rw [hconfirmed] at hexpired
    cases hexpired
  · obtain ⟨id, forceRetry, now, -, hpending⟩ := hreset
    rw [hconfirmed] at hpending
    cases hpending

theorem Evidence.served (h : Evidence stages s) (hi : stages[i]? = some σ)
    (hallowed : σ.mayAsk sendingOnNetwork SendStage.ends NetworkQuery.event q) :
    Evidence (stages.set i (σ.after sendingOnNetwork .fresh q (perform (serveNetwork hash) q s).1))
      (perform (serveNetwork hash) q s).2 := by
  refine ⟨sound_perform h.sound, fun j id hj => ?_, h.confirmed_after hi hallowed⟩
  rcases getElem?_set_cases hj with ⟨-, hτ⟩ | ⟨-, hj⟩
  · exact h.won_after hi hallowed hτ.symm
  · exact won_perform (h.won j id hj)

end Evidence
section Patience

/-- An attempt marks the record while it is pending and writes its result while it is submitted, nobody
asks for a retry by hand, and neither is an error written nor a record expired, which must be pending,
until the chain is settled. -/
structure Patient (q : Query NetworkQuery) (s : Store Chain) : Prop where
  orderly : Orderly q s
  error : ∀ id error, q = .recordError id error → s.transaction.id = id → s.chain.Settled s.now
  expired : ∀ createdBefore now, q = .expire createdBefore now → s.transaction.unfinished = true →
    s.transaction.createdAt < createdBefore → s.transaction.status = .pending ∧ s.chain.Settled s.now

/-- One handler at a time is at work, on a settled chain until it sends its transaction, and the record
leaves the chain to it only while it is submitted. -/
structure Faithful (stages : List (Stage SendStage)) (s : Store Chain) : Prop where
  oneAtWork : OneAtWork stages s
  sound : s.chain.Sound
  atWork : ∀ (i : ℕ) (id : String) (a : SendStage), stages[i]? = some (.working id a) →
    s.transaction.status = .submitted
  settled : s.transaction.status ≠ .submitted → s.transaction.status ≠ .confirmed →
    s.chain.Settled s.now
  fresh : ∀ (i : ℕ) (id : String), stages[i]? = some (.working id .fresh) → s.chain.Settled s.now
  sent : ∀ (i : ℕ) (id : String) (tx : PreparedTransaction),
    stages[i]? = some (.working id (.sent tx)) → tx ∈ s.chain.sent

variable {q : Query NetworkQuery} {a : SendStage}

theorem Faithful.start (h : Faithful stages s) : Faithful (stages ++ [.idle]) s := by
  have hold : ∀ (j : ℕ) (id : String) (a : SendStage),
      (stages ++ [.idle])[j]? = some (.working id a) → stages[j]? = some (.working id a) := by
    intro j id a hj
    rcases getElem?_snoc hj with hj | ⟨-, hσ⟩
    · exact hj
    · cases hσ
  exact ⟨h.oneAtWork.start, h.sound, fun j id a hj => h.atWork j id a (hold j id a hj), h.settled,
    fun j id hj => h.fresh j id (hold j id _ hj), fun j id tx hj => h.sent j id tx (hold j id _ hj)⟩

theorem Faithful.carry (h : Faithful stages s) (hi : stages[i]? = some σ)
    (hone : OneAtWork (stages.set i τ) s') (hsound : s'.chain.Sound)
    (hstatus : s'.transaction.status = s.transaction.status)
    (hsettled : s.chain.Settled s.now → s'.chain.Settled s'.now)
    (hsent : ∀ tx ∈ s.chain.sent, tx ∈ s'.chain.sent)
    (hτ : ∀ id a, τ = .working id a → σ = .working id a ∨ a = .won ∧ ∃ a', σ = .working id a') :
    Faithful (stages.set i τ) s' := by
  have hold : ∀ (j : ℕ) (id : String) (a : SendStage), (stages.set i τ)[j]? = some (.working id a) →
      stages[j]? = some (.working id a) ∨ a = .won ∧ ∃ a', stages[j]? = some (.working id a') := by
    intro j id a hj
    rcases getElem?_set_cases hj with ⟨rfl, heq⟩ | ⟨-, hj⟩
    · rcases hτ id a heq.symm with hσ | ⟨hwon, a', hσ⟩
      · exact .inl (hσ ▸ hi)
      · exact .inr ⟨hwon, a', hσ ▸ hi⟩
    · exact .inl hj
  refine ⟨hone, hsound, fun j id a hj => ?_, fun hsub hconf => ?_, fun j id hj => ?_, fun j id tx hj => ?_⟩
  · rw [hstatus]
    rcases hold j id a hj with hj | ⟨-, a', hj⟩
    · exact h.atWork j id a hj
    · exact h.atWork j id a' hj
  · rw [hstatus] at hsub hconf
    exact hsettled (h.settled hsub hconf)
  · rcases hold j id _ hj with hj | ⟨hwon, -⟩
    · exact hsettled (h.fresh j id hj)
    · cases hwon
  · rcases hold j id _ hj with hj | ⟨hwon, -⟩
    · exact hsent tx (h.sent j id tx hj)
    · cases hwon

theorem Faithful.vacant (hone : OneAtWork stages s) (hsound : s.chain.Sound)
    (hnobody : ∀ (j : ℕ) (ρ : Stage SendStage), stages[j]? = some ρ → ρ.subject = none)
    (hsettled : s.transaction.status ≠ .confirmed → s.chain.Settled s.now) : Faithful stages s := by
  have hnone : ∀ (j : ℕ) (id : String) (a : SendStage), stages[j]? ≠ some (.working id a) := by
    intro j id a hj
    cases hnobody j _ hj
  exact ⟨hone, hsound, fun j id a hj => absurd hj (hnone j id a), fun _ hconf => hsettled hconf,
    fun j id hj => absurd hj (hnone j id _), fun j id tx hj => absurd hj (hnone j id _)⟩

theorem Faithful.calm (h : Faithful stages s) (hi : stages[i]? = some σ)
    (hone : OneAtWork (stages.set i τ) (perform (serveNetwork hash) q s).2)
    (hstatus : (perform (serveNetwork hash) q s).2.transaction.status = s.transaction.status)
    (hq : ∀ tx, q ≠ .chain (.rpc (.sendTransaction tx)))
    (hτ : ∀ id a, τ = .working id a → σ = .working id a ∨ a = .won ∧ ∃ a', σ = .working id a') :
    Faithful (stages.set i τ) (perform (serveNetwork hash) q s).2 := by
  refine h.carry hi hone (sound_perform h.sound) hstatus
    (fun hsettled => settled_perform hsettled h.sound hq) (fun tx htx => ?_) hτ
  by_cases hchain : ∃ c, q = .chain c
  · obtain ⟨c, rfl⟩ := hchain
    exact sent_served htx
  · rw [(chain_perform q s fun c hc => hchain ⟨c, hc⟩).1]
    exact htx

theorem Faithful.serve_idle (h : Faithful stages s) (hi : stages[i]? = some .idle)
    (hallowed : Stage.idle.mayAsk sendingOnNetwork SendStage.ends NetworkQuery.event q) (hC : Patient q s)
    (hone : OneAtWork (stages.set i (Stage.idle.after sendingOnNetwork .fresh q
      (perform (serveNetwork hash) q s).1)) (perform (serveNetwork hash) q s).2) :
    Faithful (stages.set i (Stage.idle.after sendingOnNetwork .fresh q
      (perform (serveNetwork hash) q s).1)) (perform (serveNetwork hash) q s).2 := by
  cases q with
  | updateTransactionStatus id status now =>
    by_cases hid : s.transaction.id = id
    · have hpending : s.transaction.status = .pending := hC.orderly hid
      have hsettled : s.chain.Settled s.now :=
        h.settled (by rw [hpending]; decide) (by rw [hpending]; decide)
      have hsub : status = .submitted := hallowed
      rw [perform, update_of_eq hid] at hone ⊢
      have hnew : ∀ (j : ℕ) (id' : String) (a : SendStage),
          (stages.set i (.working id .fresh))[j]? = some (.working id' a) → a = .fresh := by
        intro j id' a hj
        rcases getElem?_set_cases hj with ⟨-, heq⟩ | ⟨-, hj⟩
        · exact (Stage.working.inj heq).2
        · rw [h.atWork j id' a hj] at hpending
          cases hpending
      exact ⟨hone, h.sound, fun _ _ _ _ => hsub, fun hne => absurd hsub hne, fun _ _ _ => hsettled,
        fun j id' tx hj => by cases hnew j id' _ hj⟩
    · rw [perform, update_of_ne hid] at hone ⊢
      exact h.carry hi hone h.sound rfl (fun hsettled => hsettled) (fun _ htx => htx) fun _ _ heq => by cases heq
  | resetForRetry id forceRetry now =>
    have hid : s.transaction.id ≠ id := hC.orderly
    refine h.calm hi hone ?_ (fun _ heq => by cases heq) fun _ _ heq => by cases heq
    rw [perform, update_of_ne hid]
  | expire createdBefore now =>
    by_cases hold : s.transaction.unfinished = true ∧ s.transaction.createdAt < createdBefore
    · obtain ⟨hpending, hsettled⟩ := hC.expired createdBefore now rfl hold.1 hold.2
      have hnobody : ∀ (j : ℕ) (ρ : Stage SendStage), stages[j]? = some ρ → ρ.subject = none := by
        intro j ρ hj
        refine h.oneAtWork.nobody ?_ hj
        rw [Store.taken, hpending]
        decide
      refine Faithful.vacant hone (sound_perform h.sound) (fun j ρ hj => ?_)
        fun _ => settled_perform hsettled h.sound fun _ heq => by cases heq
      rcases getElem?_set_cases hj with ⟨-, rfl⟩ | ⟨-, hj⟩
      · rfl
      · exact hnobody j ρ hj
    · refine h.calm hi hone ?_ (fun _ heq => by cases heq) fun _ _ heq => by cases heq
      rw [transaction_perform, Query.edit, if_neg hold]
      rfl
  | chain c =>
    obtain ⟨e, rfl⟩ := hallowed
    exact h.calm hi hone rfl (fun _ heq => by cases heq) fun _ _ heq => by cases heq
  | confirm id txHash attemptNumber now | recordError id error => cases hallowed
  | _ => exact h.calm hi hone rfl (fun _ heq => by cases heq) fun _ _ heq => by cases heq

theorem Faithful.serve_working (h : Faithful stages s) (hi : stages[i]? = some (.working id a))
    (hallowed : (Stage.working id a).mayAsk sendingOnNetwork SendStage.ends NetworkQuery.event q)
    (hC : Patient q s) (hone : OneAtWork (stages.set i ((Stage.working id a).after sendingOnNetwork .fresh q
      (perform (serveNetwork hash) q s).1)) (perform (serveNetwork hash) q s).2) :
    Faithful (stages.set i ((Stage.working id a).after sendingOnNetwork .fresh q
      (perform (serveNetwork hash) q s).1)) (perform (serveNetwork hash) q s).2 := by
  have hid := (h.oneAtWork.subject i _ id hi rfl).1
  have hothers : ∀ (j : ℕ) (ρ : Stage SendStage), i ≠ j → stages[j]? = some ρ → ρ.subject = none := by
    intro j ρ hij hj
    cases hρ : ρ.subject with
    | none => rfl
    | some id' => exact absurd (h.oneAtWork.alone i j _ ρ id id' hi hj rfl hρ) hij
  -- once this handler is done with the record nobody is left
  have hleft : ∀ (j : ℕ) (ρ : Stage SendStage), (stages.set i .ended)[j]? = some ρ →
      ρ.subject = none := by
    intro j ρ hj
    rcases getElem?_set_cases hj with ⟨-, rfl⟩ | ⟨hij, hj⟩
    · rfl
    · exact hothers j ρ hij hj
  cases q with
  | confirm id' txHash attemptNumber now =>
    obtain ⟨rfl, -⟩ := hallowed
    rw [perform, update_of_eq hid] at hone ⊢
    exact Faithful.vacant hone h.sound hleft fun hne => absurd rfl hne
  | recordError id' error =>
    obtain ⟨rfl, -⟩ := hallowed
    have hsettled := hC.error id' error rfl hid
    rw [perform, update_of_eq hid] at hone ⊢
    exact Faithful.vacant hone h.sound hleft fun _ => hsettled
  | clock | sleepUntil t | findUnique id' => exact h.calm hi hone rfl (fun _ heq => by cases heq) fun _ _ hτ => .inl hτ
  | chain c =>
    cases c with
    | event e => cases hallowed
    | rpc r =>
      by_cases hsend : ∃ tx, r = .sendTransaction tx
      · obtain ⟨tx, rfl⟩ := hsend
        have hstage : ∀ (j : ℕ) (id' : String) (a' : SendStage),
            (stages.set i (.working id (.sent tx)))[j]? = some (.working id' a') → a' = .sent tx := by
          intro j id' a' hj
          rcases getElem?_set_cases hj with ⟨-, heq⟩ | ⟨hij, hj⟩
          · exact (Stage.working.inj heq).2
          · cases hothers j _ hij hj
        have hsub : s.transaction.status = .submitted := h.atWork i id a hi
        refine ⟨hone, sound_perform h.sound, fun _ _ _ _ => hsub, fun hne => absurd hsub hne,
          fun j id' hj => ?_, fun j id' tx' hj => ?_⟩
        · cases hstage j id' _ hj
        · cases hstage j id' _ hj
          exact mem_append_right _ (mem_singleton_self tx)
      · refine h.calm hi hone rfl (fun tx hq => hsend ⟨tx, ?_⟩) fun id' a' hτ => ?_
        · cases hq
          rfl
        · obtain ⟨rfl, hnext⟩ := Stage.working.inj hτ
          by_cases hwon : a' = .won
          · exact .inr ⟨hwon, a, rfl⟩
          · left
            cases r with
            | sendTransaction tx => exact absurd ⟨tx, rfl⟩ hsend
            | getAccount publicKey | simulateTransaction tx => exact hτ
            | getTransaction text =>
              rcases SendStage.after_getTransaction a text
                (serveNetwork hash (.rpc (.getTransaction text)) s.now s.chain).1 with hsame | hreceipt
              · exact congrArg _ (hsame.symm.trans hnext)
              · exact absurd (hnext.symm.trans hreceipt) hwon
  | _ => cases hallowed

theorem Faithful.served (h : Faithful stages s) (hi : stages[i]? = some σ)
    (hallowed : σ.mayAsk sendingOnNetwork SendStage.ends NetworkQuery.event q) (hC : Patient q s) :
    Faithful (stages.set i (σ.after sendingOnNetwork .fresh q (perform (serveNetwork hash) q s).1))
      (perform (serveNetwork hash) q s).2 := by
  have hone : OneAtWork (stages.set i (σ.after sendingOnNetwork .fresh q
      (perform (serveNetwork hash) q s).1)) (perform (serveNetwork hash) q s).2 :=
    h.oneAtWork.served hi hallowed hC.orderly
  cases σ with
  | idle => exact h.serve_idle hi hallowed hC hone
  | working id a => exact h.serve_working hi hallowed hC hone
  | stray id =>
    rcases hallowed with rfl | rfl | ⟨error, rfl⟩
    · exact h.calm hi hone rfl (fun _ heq => by cases heq) fun _ _ heq => by cases heq
    · exact h.calm hi hone rfl (fun _ heq => by cases heq) fun _ _ heq => by cases heq
    · refine h.calm hi hone ?_ (fun _ heq => by cases heq) fun _ _ heq => by cases heq
      rw [perform, update_of_ne (h.oneAtWork.stray i id hi)]
  | ended =>
    obtain ⟨id, rfl⟩ := hallowed
    exact h.calm hi hone rfl (fun _ heq => by cases heq) fun _ _ heq => by cases heq

end Patience
section Runs
variable {sdk : Sdk} {config : AdapterConfig}

/-- One turn of the lifecycle with `SorobanAdapter`. -/
def NetworkStep (sdk : Sdk) (config : AdapterConfig) (hash : PreparedTransaction → String) :
    NetworkSystem → Turn NetworkOp → NetworkSystem → Prop :=
  Pool.Step (perform (serveNetwork hash)) (LifecycleOp.body (sorobanAdapter sdk config) .event)

variable {p : NetworkSystem} {tr : List NetworkTransition} {s₀ : Store Chain}

theorem trueToChain_iff {t : NetworkTransition} (hhonest : t.pre.store.Honest) (hsound : t.pre.store.chain.Sound)
    (hwon : t.post.store.transaction.status = .confirmed → t.post.store.chain.Won)
    (hstep : NetworkStep sdk config hash t.pre t.label t.post) :
    TrueToChain t ↔ ∀ q, t.pre.asked t.label = some q → Justified q t.pre.store := by
  rcases hstep.store with ⟨hnone, hstore⟩ | ⟨q, hq, hstore⟩
  · constructor
    · intro _ q hq
      rw [hnone] at hq
      cases hq
    · intro _
      refine ⟨hwon, ?_, fun tx hq => ?_⟩
      · rw [hstore]
        exact hhonest
      · rw [hnone] at hq
        cases hq
  · have hiff := @honest_perform_iff hash t.pre.store q hhonest hsound
    rw [← hstore] at hiff
    constructor
    · intro h q' hq'
      rw [hq] at hq'
      cases hq'
      exact hiff.mp ⟨h.givenUp, fun tx htx => h.resent tx (hq.trans (congrArg _ htx))⟩
    · intro h
      have hafter := hiff.mpr (h q hq)
      refine ⟨hwon, hafter.1, fun tx htx => hafter.2 tx ?_⟩
      rw [hq] at htx
      exact Option.some.inj htx

/-- Over every run of attempts on one record: a confirmed record has a transaction that succeeded, a failed
or expired one has none that did or still may, and a new transaction is sent only while no other may
succeed, if and only if the record is failed or expired on a settled chain only, nothing is sent
afterwards that may be applied, and nothing new while another may succeed. So it is in every run in which
one attempt at a time is at work and neither its error is written nor the record expired until the chain
is settled. And whatever the run, a confirmed record has a transaction that succeeded. -/
theorem recorded_outcome_iff (hpending : s₀.transaction.status = .pending)
    (hfresh : s₀.chain = { weather := s₀.chain.weather })
    (hrun : Run (NetworkStep sdk config hash) { store := s₀ } tr p) :
    ((∀ t ∈ tr, TrueToChain t) ↔
        ∀ t ∈ tr, ∀ q, t.pre.asked t.label = some q → Justified q t.pre.store) ∧
      ((∀ t ∈ tr, ∀ q, t.pre.asked t.label = some q → Patient q t.pre.store) →
        ∀ t ∈ tr, TrueToChain t) ∧
      ∀ t ∈ tr, t.post.store.transaction.status = .confirmed → t.post.store.chain.Won := by
  have hsound : s₀.chain.Sound := by
    rw [hfresh]
    exact ⟨fun _ => nofun, fun _ => nofun⟩
  have hsettled : s₀.chain.Settled s₀.now := by
    rw [hfresh]
    exact fun _ => nofun
  have hhonest : s₀.Honest := fun _ => hsettled
  have hevidence : ∀ t ∈ tr, t.pre.store.chain.Sound ∧
      (t.post.store.transaction.status = .confirmed → t.post.store.chain.Won) := by
    intro t ht
    have hidle : Evidence [] s₀ := by
      refine ⟨hsound, fun _ _ => nofun, fun hconfirmed => ?_⟩
      rw [hpending] at hconfirmed
      cases hconfirmed
    have hstaged := Pool.Staged.run (C := fun _ _ => True) (follows_body follows_sorobanAdapter)
      (fun stages s hJ => hJ.start) (fun stages s i σ q hJ hi hallowed _ => hJ.served hi hallowed)
      hrun (Pool.Staged.idle hidle) (fun _ _ _ _ => trivial) ht
    obtain ⟨⟨before, -, hbefore⟩, ⟨after, -, hafter⟩⟩ := hstaged
    exact ⟨hbefore.sound, hafter.confirmed⟩
  refine ⟨⟨fun h t ht => ?_, fun h t ht => ?_⟩, fun hC t ht => ?_, fun t ht => (hevidence t ht).2⟩
  · have hpre := hrun.invariant_at (I := fun p => p.store.Honest) (C := TrueToChain) hhonest h
      (fun t _ hlaws _ => hlaws.givenUp) ht
    exact (trueToChain_iff hpre.1 (hevidence t ht).1 (hevidence t ht).2 (hrun.step_of_mem ht)).mp (h t ht)
  · have hpre := hrun.invariant_at (I := fun p => p.store.Honest)
      (C := fun t => t ∈ tr ∧ ∀ q, t.pre.asked t.label = some q → Justified q t.pre.store)
      hhonest (fun t ht => ⟨ht, h t ht⟩)
      (fun t hstep hc hpre => ((trueToChain_iff hpre (hevidence t hc.1).1 (hevidence t hc.1).2
        hstep).mpr hc.2).givenUp) ht
    exact (trueToChain_iff hpre.1 (hevidence t ht).1 (hevidence t ht).2 (hrun.step_of_mem ht)).mpr (h t ht)
  · have hidle : Faithful [] s₀ := Faithful.vacant OneAtWork.idle hsound (fun _ _ => nofun) fun _ => hsettled
    have hstaged := Pool.Staged.run (follows_body follows_sorobanAdapter) (fun stages s hJ => hJ.start)
      (fun stages s i σ q hJ hi hallowed hC => hJ.served hi hallowed hC) hrun (Pool.Staged.idle hidle)
      hC ht
    obtain ⟨hbefore, ⟨after, -, hafter⟩⟩ := hstaged
    refine ⟨(hevidence t ht).2, fun hgiven => ?_, fun tx hq hnew tx' htx' => ?_⟩
    · apply hafter.settled
      · rcases hgiven with hstatus | hstatus <;> rw [hstatus] <;> decide
      · rcases hgiven with hstatus | hstatus <;> rw [hstatus] <;> decide
    · obtain ⟨stages, i, σ, hi, hallowed, hJ⟩ := hbefore.request hq
      cases σ with
      | working id a =>
        cases a with
        | fresh => exact (hJ.fresh i id hi tx' htx').2
        | sent tx'' =>
          have htx : tx = tx'' := hallowed
          exact absurd (htx ▸ hJ.sent i id tx'' hi) hnew
        | won => exact hallowed.elim
      | idle =>
        obtain ⟨e, he⟩ := hallowed
        cases he
      | stray id => rcases hallowed with h | h | ⟨error, h⟩ <;> cases h
      | ended =>
        obtain ⟨id, h⟩ := hallowed
        cases h

end Runs

def networkPlayed (turns : List (Turn NetworkOp)) : List NetworkTransition × NetworkSystem :=
  play (Pool.take (perform (serveNetwork fun _ => "hash"))
      (LifecycleOp.body (sorobanAdapter sampleSdk sampleConfig) .event))
    { store := { now := 0, transaction := sampleRecord, chain := {} } } turns

theorem networkPlayed_run (turns : List (Turn NetworkOp)) : Run (NetworkStep sampleSdk sampleConfig fun _ => "hash")
      { store := { now := 0, transaction := sampleRecord, chain := {} } }
      (networkPlayed turns).1 (networkPlayed turns).2 :=
  play_run (fun _ _ _ h => h) turns _

/-- The transaction is sent and asked for eleven times over 210 seconds, without a receipt. -/
def abandoned : List (Turn NetworkOp) :=
  [.start (.scheduleTransaction "tx"), .advance 0, .start (.process 0 0)] ++
    replicate 42 (.advance 1)

theorem recorded_outcome_sent : ((∀ t ∈ (networkPlayed (abandoned.take 20)).1, TrueToChain t) ↔
      ∀ t ∈ (networkPlayed (abandoned.take 20)).1, ∀ q, t.pre.asked t.label = some q →
        Justified q t.pre.store) :=
  (recorded_outcome_iff rfl rfl (networkPlayed_run _)).1

theorem abandoned_failed : (networkPlayed abandoned).1.getLast?.map (fun t =>
    (t.post.store.transaction.status, t.post.store.now,
      t.post.store.chain.sent.map fun tx => decide (t.post.store.chain.CanSucceed t.post.store.now tx))) =
      some (.failed, 210000, [true]) := by
  decide +kernel

theorem abandoned_live : ¬ ∀ t ∈ (networkPlayed abandoned).1, TrueToChain t := by
  intro h
  have hfailed := abandoned_failed
  cases hlast : (networkPlayed abandoned).1.getLast? with
  | none =>
    rw [hlast] at hfailed
    cases hfailed
  | some t =>
    rw [hlast, Option.map_some, Option.some.injEq, Prod.mk.injEq, Prod.mk.injEq] at hfailed
    obtain ⟨hstatus, -, hsent⟩ := hfailed
    have hsettled := (h t (mem_of_getLast? hlast)).givenUp (.inl hstatus)
    obtain ⟨tx, htx⟩ : ∃ tx, t.post.store.chain.sent = [tx] :=
      length_eq_one_iff.mp (by simpa using congrArg length hsent)
    rw [htx, map_singleton, singleton_inj, decide_eq_true_eq] at hsent
    exact (hsettled tx (by rw [htx]; exact mem_singleton_self tx)).2 hsent

end Soter.Soroban
