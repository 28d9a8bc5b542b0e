import Soter.Lib.Rely
import Soter.Events.Correlation

/-! When every contract event that is fetched ends up in exactly one row. -/
namespace Soter.Events
open Soter.Tasks Soter.Runs Soter.Json List Task.Keeps

section Keys

/-- One of the two ways in stores the event `e` of the list under the key. -/
def Keying (configured : String) (events : List ContractEvent) (key : String × ℕ) (e : ContractEvent) :
    Prop :=
  (e ∈ events ∧ key = (e.txHash, e.transactionIndex.getD 0)) ∨
    ∃ txHash i, ((events.filter (·.txHash = txHash)).filter (·.contractHash = configured))[i]? = some e ∧
      key = (txHash, i)

def Distinguished (configured : String) (events : List ContractEvent) : Prop :=
  ∀ key key' e e', Keying configured events key e → Keying configured events key' e' →
    (key = key' ↔ e = e')

/-- The event is stored under its key with the topic and the payload that it has in the list. -/
structure SorobanEvent.Faithful (configured : String) (events : List ContractEvent)
    (event : SorobanEvent) : Prop where
  keying : Keying configured events (event.txHash, event.eventIndex) event.origin
  topic : event.origin.topic = some event.topic
  payload : event.origin.payload = event.payload

structure CorrelationRow.Faithful (configured : String) (events : List ContractEvent)
    (row : CorrelationRow) : Prop where
  keying : Keying configured events row.key row.origin
  topic : row.origin.topic = some row.eventTopic
  payload : row.origin.payload = row.payload

variable {configured : String} {events : List ContractEvent} {e : ContractEvent} {event : SorobanEvent}
  {source : CorrelationSource}

theorem mapTopic_eq (topic : String) : mapTopic topic = topic := by
  have hfound : ∀ topics : List String, topics.map (fun t => (t, t)) |>.lookup topic |>.all (· = topic) := by
    intro topics
    induction topics with
    | nil => rfl
    | cons t topics ih =>
      rw [map_cons, lookup_cons]
      by_cases h : topic = t
      · simp [h]
      · rw [beq_eq_false_iff_ne.mpr h]
        exact ih
  have h := hfound sorobanEventTopics
  rw [mapTopic, topicMap]
  cases hlookup : (sorobanEventTopics.map fun t => (t, t)).lookup topic with
  | none => rfl
  | some t =>
    rw [hlookup] at h
    simpa using h

theorem SorobanEvent.Faithful.row (h : event.Faithful configured events) : (event.row source).Faithful configured events :=
  ⟨h.keying, by rw [SorobanEvent.row, mapTopic_eq]; exact h.topic, h.payload⟩

theorem faithful_of_fetched (he : e ∈ events) (h : e.fetched = some event) :
    event.Faithful configured events ∧ event.origin = e := by
  obtain ⟨topic, htopic, rfl⟩ := Option.map_eq_some_iff.mp h
  have htopic : e.topic = some topic := (Option.filter_eq_some_iff.mp htopic).1
  exact ⟨⟨.inl ⟨he, rfl⟩, htopic, rfl⟩, rfl⟩

theorem topic_of_getD {topic : Option String} (h : topic.getD "" ≠ "") : topic = some (topic.getD "") := by
  cases topic with
  | none => exact absurd rfl h
  | some text => rfl

theorem faithful_of_extracted {s : Store} (hevents : s.events = events) {txHash : String} {result : TransactionResult}
    (hresult : result.events = some (s.ofTransaction txHash) ∨ result.events = none)
    (h : event ∈ result.sorobanEvents configured txHash) : event.Faithful configured events := by
  obtain ⟨hmem, htopic⟩ := mem_filter.mp h
  rcases hresult with hresult | hresult
  · rw [hresult, Option.getD_some] at hmem
    obtain ⟨i, hi, rfl⟩ := mem_mapIdx.mp hmem
    refine ⟨.inr ⟨txHash, i, ?_, rfl⟩, ?_, rfl⟩
    · rw [← hevents]
      exact getElem?_eq_getElem hi
    · exact topic_of_getD (of_decide_eq_true htopic)
  · rw [hresult] at hmem
    cases hmem

end Keys
section Rows
variable {configured : String} {events : List ContractEvent} {s s' : Store}

structure Sound (configured : String) (events : List ContractEvent) (s : Store) : Prop where
  list : s.events = events
  faithful : ∀ row ∈ s.rows, row.Faithful configured events
  keys : (s.rows.map CorrelationRow.key).Nodup

def Stored (e : ContractEvent) (s : Store) : Prop := ∃ row ∈ s.rows, row.origin = e

def Grows (s s' : Store) : Prop := ∀ row ∈ s.rows, row ∈ s'.rows

variable {e : ContractEvent} {row : CorrelationRow}

theorem Grows.refl (s : Store) : Grows s s := fun _ h => h

theorem Grows.trans (s₁ s₂ s₃ : Store) (h : Grows s₁ s₂) (h' : Grows s₂ s₃) : Grows s₁ s₃ :=
  fun row hrow => h' row (h row hrow)

theorem Stored.grows (h : Stored e s) (hs : Grows s s') : Stored e s' := by
  obtain ⟨row, hrow, horigin⟩ := h
  exact ⟨row, hs row hrow, horigin⟩

theorem Sound.once (h : Sound configured events s) (hkeys : Distinguished configured events) :
    (s.rows.map CorrelationRow.origin).Nodup := by
  have hpair := pairwise_map.mp h.keys
  apply pairwise_map.mpr
  refine (List.Pairwise.and_mem.mp hpair).imp ?_
  rintro row row' ⟨hrow, hrow', hne⟩ horigin
  exact hne ((hkeys _ _ _ _ (h.faithful row hrow).keying (h.faithful row' hrow').keying).mpr horigin)

theorem Sound.stored_of_findRow (h : Sound configured events s) (hkeys : Distinguished configured events)
    {key : String × ℕ} (hkey : Keying configured events key e) (hrow : s.findRow key = some row) : Stored e s := by
  have hmem := mem_of_find?_eq_some hrow
  have hfound : decide (row.key = key) = true :=
    @find?_some _ (fun row : CorrelationRow => decide (row.key = key)) row s.rows hrow
  refine ⟨row, hmem, ?_⟩
  exact (hkeys _ _ _ _ (h.faithful row hmem).keying hkey).mp (of_decide_eq_true hfound)

theorem createRow_eq_ok (h : s.createRow row = .ok s') :
    s' = { s with rows := s.rows ++ [row] } ∧ s.findRow row.key = none := by
  rw [Store.createRow] at h
  split at h
  · cases h
  · split at h
    · cases h
    · rename_i hfree
      split at h
      · cases h
      · split at h
        · cases h
        · cases h
          exact ⟨rfl, Option.not_isSome_iff_eq_none.mp hfree⟩

def Proper (configured : String) (events : List ContractEvent) : Query → Prop
  | .create row => row.Faithful configured events
  | _ => True

theorem Sound.perform (h : Sound configured events s) {q : Query} (hq : Proper configured events q) :
    Grows s (perform q s).2 ∧ Sound configured events (perform q s).2 := by
  cases q with
  | create row =>
    rcases commit_cases ((s.createRow row).map fun s' => ((), s')) s with
      ⟨e, -, hcommit⟩ | ⟨u, s', hcreate, hcommit⟩
    · rw [Events.perform, hcommit]
      exact ⟨Grows.refl s, h⟩
    · rw [Events.perform, hcommit]
      cases hrow : s.createRow row with
      | error e =>
        rw [hrow] at hcreate
        cases hcreate
      | ok s'' =>
        rw [hrow] at hcreate
        cases hcreate
        obtain ⟨rfl, hfree⟩ := createRow_eq_ok hrow
        refine ⟨fun row' hrow' => mem_append_left _ hrow', h.list, fun row' hrow' => ?_, ?_⟩
        · rcases mem_append.mp hrow' with hold | hnew
          · exact h.faithful row' hold
          · rw [mem_singleton.mp hnew]
            exact hq
        · rw [map_append, map_singleton]
          refine nodup_append.mpr ⟨h.keys, nodup_singleton _, ?_⟩
          intro key hkey key' hkey' heq
          obtain ⟨row', hrow', rfl⟩ := mem_map.mp hkey
          rw [mem_singleton.mp hkey'] at heq
          have hne := find?_eq_none.mp hfree row' hrow'
          exact hne (decide_eq_true heq)
  | foresee weather => exact ⟨Grows.refl s, h.list, h.faithful, h.keys⟩
  | getEvents contractId range | getTransaction txHash | findUnique txHash eventIndex => exact ⟨Grows.refl s, h⟩

end Rows
section Handlers
variable {configured : String} {events : List ContractEvent} {s : Store}

def Fits (q : Query) (s : Store) : Prop :=
  ∀ contractId range, q = .getEvents contractId range →
    (s.events.filter (·.selected contractId range)).length ≤ 1000

def Keeps {α : Type} (configured : String) (events : List ContractEvent)
    (post : Except String α → Store → Prop) (t : Handler α) (s : Store) : Prop :=
  t.Keeps perform Grows (Sound configured events) Fits (fun q _ => Proper configured events q) post s

def Reported (details : List Detail) (s : Store) : Prop :=
  ∀ d ∈ details, d.success = true → Stored d.origin s

theorem Reported.grows {details : List Detail} {s' : Store} (h : Reported details s) (hs : Grows s s') :
    Reported details s' :=
  fun d hd hsuccess => (h d hd hsuccess).grows hs

theorem keeps_correlateSingleEvent (hkeys : Distinguished configured events) {event : SorobanEvent}
    (hevent : event.Faithful configured events) (source : CorrelationSource) :
    Keeps configured events (fun result s => ∀ d, result = .ok d → d.origin = event.origin ∧ Stored d.origin s)
      (correlateSingleEvent event source) s := by
  intro s₁ _ hsound _
  refine ⟨trivial, ?_⟩
  cases hreply : (perform (.findUnique event.txHash event.eventIndex) s₁).1 with
  | error e => exact fun _ _ _ _ => nofun
  | ok found =>
    have hfound : s₁.findRow (event.txHash, event.eventIndex) = found := by
      have hmap : s₁.weather.findUnique.map (fun _ => s₁.findRow (event.txHash, event.eventIndex)) =
          .ok found := hreply
      cases hweather : s₁.weather.findUnique with
      | error e =>
        rw [hweather] at hmap
        cases hmap
      | ok u =>
        rw [hweather] at hmap
        exact Except.ok.inj hmap
    cases found with
    | some row =>
      -- the key is taken, and by this very event
      have hstored := hsound.stored_of_findRow hkeys hevent.keying hfound
      intro s₂ hgrows _ d hd
      cases hd
      exact ⟨rfl, hstored.grows hgrows⟩
    | none =>
      intro s₂ _ hsound₂ _
      refine ⟨hevent.row, ?_⟩
      rcases commit_cases ((s₂.createRow (event.row source)).map fun s' => ((), s')) s₂ with
        ⟨e, -, hcommit⟩ | ⟨u, s', hcreate, hcommit⟩
      · rw [perform, hcommit]
        exact fun _ _ _ _ => nofun
      · rw [perform, hcommit]
        cases hrow : s₂.createRow (event.row source) with
        | error e =>
          rw [hrow] at hcreate
          cases hcreate
        | ok s'' =>
          rw [hrow] at hcreate
          cases hcreate
          obtain ⟨rfl, -⟩ := createRow_eq_ok hrow
          intro s₃ hgrows _ d hd
          cases hd
          have hstored : Stored event.origin { s₂ with rows := s₂.rows ++ [event.row source] } :=
            ⟨_, mem_append_right _ (mem_singleton_self _), rfl⟩
          exact ⟨rfl, hstored.grows hgrows⟩

theorem keeps_processEvents (hkeys : Distinguished configured events) (source : CorrelationSource) :
    ∀ (es : List SorobanEvent) (result : EventCorrelationResult) (s : Store),
      (∀ event ∈ es, event.Faithful configured events) → Reported result.details s →
      Keeps configured events (fun outcome s => ∀ final, outcome = .ok final → Reported final.details s ∧
            final.details.map Detail.origin = result.details.map Detail.origin ++ es.map SorobanEvent.origin)
        (processEvents source result es) s
  | [], result, s, _, hreported => by
    intro s' hgrows _ final hfinal
    cases hfinal
    exact ⟨hreported.grows hgrows, by rw [map_nil, append_nil]⟩
  | event :: rest, result, s, hes, hreported => by
    have hevent := hes event mem_cons_self
    have hrest : ∀ event ∈ rest, event.Faithful configured events :=
      fun e he => hes e (mem_cons_of_mem event he)
    -- what an event adds to the result
    have hnext : ∀ (detail : Detail) (s' : Store), Reported result.details s' →
        detail.origin = event.origin → (detail.success = true → Stored detail.origin s') →
        Keeps configured events (fun outcome s => ∀ final, outcome = .ok final →
            Reported final.details s ∧ final.details.map Detail.origin =
              result.details.map Detail.origin ++ (event :: rest).map SorobanEvent.origin)
          (processEvents source (result.add detail) rest) s' := by
      intro detail s' hbefore horigin hdetail
      have hadded : Reported (result.add detail).details s' := by
        intro d hd hsuccess
        rcases mem_append.mp hd with hold | hnew
        · exact hbefore d hold hsuccess
        · rw [mem_singleton.mp hnew] at hsuccess ⊢
          exact hdetail hsuccess
      refine of_post (fun outcome s'' hpost final hfinal => ?_)
        (keeps_processEvents hkeys source rest (result.add detail) s' hrest hadded)
      refine ⟨(hpost final hfinal).1, ?_⟩
      calc
        final.details.map Detail.origin
        _ = (result.add detail).details.map Detail.origin ++ rest.map SorobanEvent.origin :=
          (hpost final hfinal).2
        _ = result.details.map Detail.origin ++ (event :: rest).map SorobanEvent.origin := by
          rw [EventCorrelationResult.add, map_append, map_singleton, horigin, append_assoc]
          rfl
    refine bind Grows.refl (fun caught s' => Reported result.details s' ∧ ∃ outcome, caught = .ok outcome ∧
        ∀ d, outcome = .ok d → d.origin = event.origin ∧ Stored d.origin s')
      (fun outcome s' hpost => ?_) (fun e s' hpost => ?_) ?_
    · obtain ⟨hbefore, caught, hcaught, hd⟩ := hpost
      cases hcaught
      cases outcome with
      | ok detail => exact hnext detail s' hbefore (hd detail rfl).1 fun _ => (hd detail rfl).2
      | error errorMessage => exact hnext _ s' hbefore rfl nofun
    · obtain ⟨-, caught, hcaught, -⟩ := hpost
      cases hcaught
    · have hsingle := frame (F := Reported result.details)
        (fun _ _ hgrows h => Reported.grows h hgrows) (fun q s' hI _ hq => (hI.perform hq).1)
        (keeps_correlateSingleEvent (s := s) hkeys hevent source) hreported
      refine of_post (fun caught s' hpost => ?_) (attempt hsingle)
      obtain ⟨outcome, hcaught, hbefore, hd⟩ := hpost
      exact ⟨hbefore, outcome, hcaught, hd⟩

theorem keeps_withRetry {α : Type} {post : Except String α → Prop} {fn : Handler α}
    (hfn : ∀ s, Keeps configured events (fun result _ => post result) fn s) : ∀ (retries : ℕ) (s : Store),
      Keeps configured events (fun result _ => post result) (withRetry fn retries) s
  | 0, s => hfn s
  | retries + 1, s => by
    refine bind Grows.refl (fun result _ => ∃ caught, result = .ok caught ∧ post caught)
      (fun caught s' hpost => ?_) (fun e s' hpost => ?_) (attempt (hfn s))
    · obtain ⟨outcome, hcaught, hpost⟩ := hpost
      cases hcaught
      cases caught with
      | ok a => exact fun _ _ _ => hpost
      | error e => exact keeps_withRetry hfn retries s'
    · obtain ⟨outcome, hcaught, -⟩ := hpost
      cases hcaught

theorem keeps_getEvents (contractId : String) (range : Option LedgerRange) (s : Store) : Keeps configured events
      (fun result _ => ∀ l, result = .ok l → l = events.filter (·.selected contractId range))
      (getEvents contractId range) s := by
  intro s' _ hsound hfits
  refine ⟨trivial, fun _ _ _ l hl => ?_⟩
  have hmap : s'.weather.getEvents.map (fun _ =>
      (s'.events.filter (·.selected contractId range)).take 1000) = .ok l := hl
  have hlength := hfits contractId range rfl
  rw [take_of_length_le hlength, hsound.list] at hmap
  cases hweather : s'.weather.getEvents with
  | error e =>
    rw [hweather] at hmap
    cases hmap
  | ok u =>
    rw [hweather] at hmap
    exact (Except.ok.inj hmap).symm

theorem keeps_getTransaction (txHash : String) (s : Store) : Keeps configured events
      (fun result _ => ∀ r, result = .ok r → ∀ event ∈ r.sorobanEvents configured txHash,
        event.Faithful configured events) (getTransaction txHash) s := by
  intro s' _ hsound _
  refine ⟨trivial, fun _ _ _ r hr event hevent => ?_⟩
  refine faithful_of_extracted hsound.list ?_ hevent
  have hmap : (perform (.getTransaction txHash) s').1 = .ok r := hr
  simp only [perform] at hmap
  cases hweather : s'.weather.getTransaction with
  | error e =>
    rw [hweather] at hmap
    cases hmap
  | ok status =>
    rw [hweather] at hmap
    cases hmap
    by_cases hmeta : s'.weather.metaReadable = true
    · exact .inl (if_pos hmeta)
    · exact .inr (if_neg hmeta)

/-- The result of a call: what it tells to be stored is, and the scheduled fetch leaves no event of its
ledgers out. -/
def Outcome (configured : String) (events : List ContractEvent) (op : CorrelationOp)
    (outcome : Except String EventCorrelationResult) (s : Store) : Prop :=
  ∀ final, outcome = .ok final → Reported final.details s ∧
    ∀ data, op = .correlateEvents data → ∀ e ∈ events,
      e.selected (targetContractId configured data) (ledgerRange data) = true →
        ∃ d ∈ final.details, d.origin = e

def Relevant (events : List ContractEvent) : Prop :=
  ∀ e ∈ events, ∃ topic ∈ correlatedTopics, e.topic = some topic

theorem ne_empty_of_correlated {topic : String} (h : topic ∈ correlatedTopics) : topic ≠ "" := by
  rintro rfl
  exact absurd h (by decide)

theorem keeps_correlateEvents (hkeys : Distinguished configured events) (hrelevant : Relevant events)
    (data : CorrelationJobData) : Keeps configured events
      (Outcome configured events (.correlateEvents data)) (correlateEvents configured data) s := by
  refine bind Grows.refl (fun result _ => ∀ fetched, result = .ok fetched →
      fetched = (events.filter (·.selected (targetContractId configured data) (ledgerRange data))).filterMap
        ContractEvent.fetched)
    (fun fetched s' hfetched => ?_) (fun _ _ _ _ => nofun) ?_
  · rw [hfetched fetched rfl]
    refine of_post (fun outcome s'' hpost final hfinal => ?_)
      (keeps_processEvents hkeys data.correlationSource _ {} s' (fun event hevent => ?_) fun _ => nofun)
    · obtain ⟨hreported, hdetails⟩ := hpost final hfinal
      refine ⟨hreported, fun data' hdata e he hselected => ?_⟩
      cases hdata
      obtain ⟨topic, htopic, heq⟩ := hrelevant e he
      -- the event is fetched, and its topic lets it through
      have hfetched : e.fetched = some
          { topic := topic, payload := e.payload, txHash := e.txHash, ledger := e.ledger,
            eventIndex := e.transactionIndex.getD 0, origin := e } := by
        rw [ContractEvent.fetched, heq, Option.filter_some,
          if_pos (decide_eq_true (ne_empty_of_correlated htopic)), Option.map_some]
      have hmem : e ∈ final.details.map Detail.origin := by
        rw [hdetails, map_nil, nil_append]
        refine mem_map.mpr ⟨_, ?_, (@faithful_of_fetched configured _ _ _ he hfetched).2⟩
        refine mem_filter.mpr ⟨?_, decide_eq_true htopic⟩
        exact mem_filterMap.mpr ⟨e, mem_filter.mpr ⟨he, hselected⟩, hfetched⟩
      exact mem_map.mp hmem
    · obtain ⟨e, he, hfetched⟩ := mem_filterMap.mp (mem_filter.mp hevent).1
      exact (faithful_of_fetched (mem_filter.mp he).1 hfetched).1
  · refine bind Grows.refl _ (fun response s' hresponse => ?_) (fun _ _ _ _ => nofun)
      (keeps_withRetry (fun s => keeps_getEvents (targetContractId configured data) (ledgerRange data) s) 3 s)
    intro _ _ _ fetched hfetched
    cases hfetched
    rw [hresponse response rfl]

theorem keeps_correlateTransaction (hkeys : Distinguished configured events) (txHash : String)
    (source : CorrelationSource) : Keeps configured events (Outcome configured events (.correlateTransaction txHash source))
      (correlateTransaction configured txHash source) s := by
  refine bind Grows.refl _ (fun result s' hresult => ?_) (fun _ _ _ _ => nofun)
    (keeps_withRetry (fun s => keeps_getTransaction txHash s) 3 s)
  refine Task.keeps_ite (fun _ => fun _ _ _ _ => nofun) fun _ => ?_
  refine of_post (fun outcome s'' hpost final hfinal => ?_)
    (keeps_processEvents hkeys source _ {} s' (hresult result rfl) fun _ => nofun)
  exact ⟨(hpost final hfinal).1, fun _ => nofun⟩

theorem keeps_body (hkeys : Distinguished configured events) (hrelevant : Relevant events)
    (op : CorrelationOp) : Keeps configured events (Outcome configured events op) (op.body configured) s := by
  cases op with
  | correlateEvents data => exact keeps_correlateEvents hkeys hrelevant data
  | correlateTransaction txHash source => exact keeps_correlateTransaction hkeys txHash source
  | foresee weather =>
    intro s' _ _ _
    refine ⟨trivial, fun _ _ _ final hfinal => ?_⟩
    cases hfinal
    exact ⟨fun _ => nofun, fun _ => nofun⟩

end Handlers
section Runs
variable {configured : String} {events : List ContractEvent} {s₀ : Store} {p : CorrelationPool}
  {tr : List CorrelationTransition}

/-- Every event that a call tells to be stored is, in one row only and with its own topic and payload, and
the scheduled fetch tells of every event of its ledgers. -/
structure CorrelatedOnce (configured : String) (p : CorrelationPool) : Prop where
  once : (p.store.rows.map CorrelationRow.origin).Nodup
  own : ∀ row ∈ p.store.rows, row.origin.topic = some row.eventTopic ∧ row.origin.payload = row.payload
  stored : ∀ op result, (op, .done (.ok result)) ∈ p.threads → Reported result.details p.store
  covered : ∀ data result, (.correlateEvents data, .done (.ok result)) ∈ p.threads →
    ∀ e ∈ p.store.events,
      e.selected (targetContractId configured data) (ledgerRange data) = true →
        ∃ d ∈ result.details, d.origin = e

theorem fits_of_run (hlength : s₀.events.length ≤ 1000) (hrun : Run (CorrelationStep configured) { store := s₀ } tr p) :
    ∀ t ∈ tr, ∀ q, t.pre.asked t.label = some q → Fits q t.pre.store := by
  intro t ht q _ contractId range _
  have hevents : ∀ q s, (perform q s).2.events = s.events := by
    intro q s
    cases q with
    | create row =>
      refine commit_keeps (P := fun s' : Store => s'.events = s.events) rfl fun u s' hs' => ?_
      cases hrow : s.createRow row with
      | error e =>
        rw [hrow] at hs'
        cases hs'
      | ok s'' =>
        rw [hrow] at hs'
        cases hs'
        rw [(createRow_eq_ok hrow).1]
    | _ => rfl
  have hpre := (hrun.invariant_at (I := fun p => p.store.events = s₀.events) (C := fun _ => True) rfl
    (fun _ _ => trivial) (fun t hstep _ hpre => by
      rcases hstep.store with ⟨-, hstore⟩ | ⟨q, -, hstore⟩
      · rw [hstore]
        exact hpre
      · rw [hstore, hevents]
        exact hpre) ht).1
  rw [hpre]
  exact (length_filter_le _ _).trans hlength

end Runs

def sampleEvent (position : ℕ) : ContractEvent where
  ledger := 7
  txHash := "hash"
  position := position
  transactionIndex := some 1
  contractId := "C"
  contractHash := "00"
  topic := some "package_created"
  payload := .obj [("package_id".toList, .num (toString position))]

def sampleData : CorrelationJobData where
  startLedger := some 1
  correlationSource := .scheduled

def correlationPlayed (events : List ContractEvent) (turns : List (Turn CorrelationOp)) :
    List CorrelationTransition × CorrelationPool :=
  play (Pool.take perform (CorrelationOp.body "C")) { store := { events := events } } turns

theorem correlationPlayed_run (events : List ContractEvent) (turns : List (Turn CorrelationOp)) :
    Run (CorrelationStep "C") { store := { events := events } } (correlationPlayed events turns).1
      (correlationPlayed events turns).2 :=
  play_run (fun _ _ _ h => h) turns _

def fetchedOnce : List (Turn CorrelationOp) :=
  .start (.correlateEvents sampleData) :: replicate 5 (.advance 0)

theorem distinguished_single : Distinguished "C" [sampleEvent 0] := by
  have hall : ∀ key e, Keying "C" [sampleEvent 0] key e → key = ("hash", 1) ∧ e = sampleEvent 0 := by
    intro key e h
    rcases h with ⟨he, rfl⟩ | ⟨txHash, i, hi, -⟩
    · rw [mem_singleton.mp he]
      exact ⟨rfl, rfl⟩
    · have hmem := (mem_filter.mp (mem_of_getElem? hi))
      have he := mem_singleton.mp (mem_filter.mp hmem.1).1
      rw [he] at hmem
      exact absurd (of_decide_eq_true hmem.2) (by decide)
  intro key key' e e' h h'
  obtain ⟨rfl, rfl⟩ := hall key e h
  obtain ⟨rfl, rfl⟩ := hall key' e' h'
  exact ⟨fun _ => rfl, fun _ => rfl⟩

def reports (p : CorrelationPool) : List (List (ℕ × Bool)) :=
  p.threads.map fun thread =>
    match thread.2 with
    | .done (.ok result) => result.details.map fun d => (d.origin.position, d.success)
    | _ => []

theorem fetchedOnce_reports :
    reports (correlationPlayed [sampleEvent 0, sampleEvent 1] fetchedOnce).2 = [[(0, true), (1, true)]] ∧
      (correlationPlayed [sampleEvent 0, sampleEvent 1] fetchedOnce).2.store.rows.map (·.origin.position) = [0] := by
  decide +kernel

end Soter.Events
