import Soter.AiCache.Invalidation

/-! The content hash of a claim's evidence (`_compute_evidence_content_hash` of `api/v1/humanitarian.py`), and the content keys
made of it. -/
namespace Soter.AiCache
open Soter.Json (Text Numerals)
open Soter.PyJson List

section Evidence

structure Content where
  bytes : List UInt8
  length_lt : bytes.length < 256 ^ 8
deriving DecidableEq

/-- `int.to_bytes(_, "big")` -/
def toBytes : ℕ → ℕ → List UInt8
  | 0, _ => []
  | size + 1, n => toBytes size (n / 256) ++ [UInt8.ofNat n]

def Content.framed (data : Content) : List UInt8 := toBytes 8 data.bytes.length ++ data.bytes

structure Evidence where
  artifactIds : List Text
  read : Text → Option Content

def hashArtifacts (read : Text → Option Content) : List Text → List UInt8 → Option (List UInt8)
  | [], hasher => some hasher
  | artifactId :: rest, hasher =>
    match read artifactId with
    | none => none
    | some data => hashArtifacts read rest (hasher ++ data.framed)

variable (hexdigest : List UInt8 → Text) (e : Evidence)

def computeEvidenceContentHash : Text :=
  if e.artifactIds = [] then []
  else ((hashArtifacts e.read (e.artifactIds.insertionSort KeyLE) []).map hexdigest).getD []

variable {Num : Type} (c : VerifyCall Num)

def VerifyCall.submit : VerifyCall Num :=
  { c with artifactTag := artifactTagOf e.artifactIds, contentHash := computeEvidenceContentHash hexdigest e }

end Evidence
section Identity

structure Evidence.Readable (e : Evidence) : Prop where
  nonempty : e.artifactIds ≠ []
  read : ∀ artifactId ∈ e.artifactIds, (e.read artifactId).isSome

def Evidence.contents (e : Evidence) : List Content := e.artifactIds.filterMap e.read

def Evidence.contentsById (e : Evidence) : List Content := (e.artifactIds.insertionSort KeyLE).filterMap e.read

variable {Num : Type} (hexdigest : List UInt8 → Text) (sha256 : Text → Text) (numerals : Numerals Num) (e e' : Evidence)

structure IgnoresIdentity : Prop where
  hash : computeEvidenceContentHash hexdigest e = computeEvidenceContentHash hexdigest e' ↔ e.contents.Perm e'.contents
  keyed : ∀ c : VerifyCall Num, ((c.submit hexdigest e).contentKey sha256 numerals).isSome
  hits : e.contents.Perm e'.contents → ∀ c : VerifyCall Num,
    (c.submit hexdigest e').contentKey sha256 numerals = (c.submit hexdigest e).contentKey sha256 numerals
  never : ∀ (c d : VerifyCall Num) (key : Text), (c.submit hexdigest e).contentKey sha256 numerals = some key →
    (key = (d.submit hexdigest e').cacheKey sha256 numerals ∨ (d.submit hexdigest e').contentKey sha256 numerals = some key) →
    e.contents.Perm e'.contents

variable {hexdigest sha256 numerals e e'}

theorem length_toBytes (size n : ℕ) : (toBytes size n).length = size := by
  induction size generalizing n with
  | zero => rfl
  | succ size ih => rw [toBytes, length_append, ih, length_singleton]

theorem toBytes_inj {size n m : ℕ} (hn : n < 256 ^ size) (hm : m < 256 ^ size) (h : toBytes size n = toBytes size m) : n = m := by
  induction size generalizing n m with
  | zero =>
    rw [pow_zero] at hn hm
    omega
  | succ size ih =>
    obtain ⟨hhigh, hlow⟩ := append_inj' h rfl
    rw [pow_succ] at hn hm
    have hquotient := ih (Nat.div_lt_of_lt_mul (by omega)) (Nat.div_lt_of_lt_mul (by omega)) hhigh
    have hbyte := congrArg UInt8.toNat (cons.inj hlow).1
    rw [UInt8.toNat_ofNat', UInt8.toNat_ofNat'] at hbyte
    omega

theorem framed_inj {xs ys : List Content} (h : xs.flatMap Content.framed = ys.flatMap Content.framed) : xs = ys := by
  have hlong (x : Content) (rest : List UInt8) : x.framed ++ rest ≠ [] := fun hnil => by
    have hlength := congrArg length hnil
    simp [Content.framed, length_toBytes] at hlength
  induction xs generalizing ys with
  | nil =>
    cases ys with
    | nil => rfl
    | cons y ys => exact absurd h.symm (hlong y _)
  | cons x xs ih =>
    cases ys with
    | nil => exact absurd h (hlong x _)
    | cons y ys =>
      simp only [flatMap_cons, Content.framed, append_assoc] at h
      obtain ⟨hsize, hrest⟩ := append_inj h (by rw [length_toBytes, length_toBytes])
      obtain ⟨hbytes, hrest⟩ := append_inj hrest (toBytes_inj x.length_lt y.length_lt hsize)
      have hxy : x = y := by
        cases x
        cases y
        congr
      rw [hxy, ih hrest]

theorem hashArtifacts_eq {ids : List Text} (h : ∀ artifactId ∈ ids, (e.read artifactId).isSome) (hasher : List UInt8) :
    hashArtifacts e.read ids hasher = some (hasher ++ (ids.filterMap e.read).flatMap Content.framed) := by
  induction ids generalizing hasher with
  | nil => simp [hashArtifacts]
  | cons artifactId ids ih =>
    obtain ⟨data, hdata⟩ := Option.isSome_iff_exists.mp (h artifactId mem_cons_self)
    rw [hashArtifacts, hdata, filterMap_cons_some hdata, flatMap_cons, ← append_assoc]
    exact ih (fun a ha => h a (mem_cons_of_mem _ ha)) _

theorem Evidence.Readable.hash_eq (h : e.Readable) :
    computeEvidenceContentHash hexdigest e = hexdigest (e.contentsById.flatMap Content.framed) := by
  have hread : ∀ artifactId ∈ e.artifactIds.insertionSort KeyLE, (e.read artifactId).isSome := by
    intro artifactId hmem
    exact h.read artifactId ((perm_insertionSort _ _).mem_iff.mp hmem)
  rw [computeEvidenceContentHash, if_neg h.nonempty, hashArtifacts_eq hread]
  rfl

theorem Evidence.contentsById_perm (e : Evidence) : e.contentsById.Perm e.contents :=
  (perm_insertionSort _ _).filterMap _

theorem hash_eq_iff (hdigest : Function.Injective hexdigest) (he : e.Readable) (he' : e'.Readable) :
    computeEvidenceContentHash hexdigest e = computeEvidenceContentHash hexdigest e' ↔ e.contentsById = e'.contentsById := by
  rw [he.hash_eq, he'.hash_eq, hdigest.eq_iff]
  exact ⟨framed_inj, congrArg _⟩

theorem ignoresIdentity_iff (hdigest : Function.Injective hexdigest)
    (hhex : ∀ bytes, hexdigest bytes ≠ [] ∧ ∀ x ∈ hexdigest bytes, isTagSeparator x = false)
    (hsha : Function.Injective sha256) (hplain : ∀ t, ':' ∉ sha256 t) (he : e.Readable) (he' : e'.Readable) :
    IgnoresIdentity hexdigest sha256 numerals e e' ↔ (e.contents.Perm e'.contents → e.contentsById = e'.contentsById) := by
  have hsame := hash_eq_iff hdigest he he'
  have hne {e : Evidence} (he : e.Readable) : computeEvidenceContentHash hexdigest e ≠ [] := by
    rw [he.hash_eq]
    exact (hhex _).1
  have hsanitized {e : Evidence} (he : e.Readable) :
      sanitizeTagValue (computeEvidenceContentHash hexdigest e) = computeEvidenceContentHash hexdigest e := by
    rw [he.hash_eq]
    exact sanitizeTagValue_of_plain (hhex _).2
  have hperm (h : e.contentsById = e'.contentsById) : e.contents.Perm e'.contents :=
    (e.contentsById_perm.symm.trans (.of_eq h)).trans e'.contentsById_perm
  constructor
  · intro h hcontents
    exact hsame.mp (h.hash.mpr hcontents)
  · intro h
    constructor
    · rw [hsame]
      exact ⟨hperm, h⟩
    · intro c
      rw [VerifyCall.contentKey, if_neg (show (c.submit hexdigest e).contentHash ≠ [] from hne he)]
      rfl
    · intro hcontents c
      apply contentKey_update sha256 numerals (c.submit hexdigest e) _ (hne he) (hne he')
      exact congrArg sanitizeTagValue (hsame.mpr (h hcontents))
    · intro c d key hkey hkey'
      apply hperm
      rw [← hsame, ← hsanitized he, ← hsanitized he']
      rcases hkey' with hkey' | hkey'
      · exact (cacheKey_ne_contentKey hsha hplain hkey' hkey).elim
      · exact (same_of_contentKey hsha hplain hkey hkey').2

end Identity

def photo : Content := ⟨[0x61], by decide⟩

def report : Content := ⟨[0x62], by decide⟩

def uploaded (x y : String × Content) : Evidence where
  artifactIds := [x.1.toList, y.1.toList]
  read artifactId := if artifactId = x.1.toList then some x.2 else if artifactId = y.1.toList then some y.2 else none

def digestPlain (bytes : List UInt8) : Text := bytes.map fun b => Char.ofNat (0x100 + b.toNat)

/-- `hashlib.sha256` on the two inputs below, and some other text for each other input. -/
def evidenceDigest (bytes : List UInt8) : Text :=
  if bytes = [photo, report].flatMap Content.framed then "3c9d591045bc8876f9d0399bbfb05c6a412096e906f73278f98406cd5dca86df".toList
  else if bytes = [report, photo].flatMap Content.framed then
    "99deff970531d72b548cca8adc415ed10502758e178b0fc8fd2219977e7aa499".toList
  else 'x' :: digestPlain bytes

theorem toNat_digestPlain (b : UInt8) : (Char.ofNat (0x100 + b.toNat)).toNat = 0x100 + b.toNat := by
  have hsize := b.toNat_lt
  have hvalid : (0x100 + b.toNat).isValidChar := .inl (by omega)
  rw [Char.ofNat, dif_pos hvalid]
  rfl

theorem evidenceDigest_injective : Function.Injective evidenceDigest := by
  have hplain : Function.Injective digestPlain := by
    apply map_injective_iff.mpr
    intro a b h
    have hcode := congrArg Char.toNat h
    rw [toNat_digestPlain, toNat_digestPlain] at hcode
    exact UInt8.toNat_inj.mp (Nat.add_left_cancel hcode)
  have hne {real rest : Text} (hreal : real.head? ≠ some 'x') (h : real = 'x' :: rest) : False := hreal (h ▸ rfl)
  intro a b h
  unfold evidenceDigest at h
  split_ifs at h with ha hb hb' ha' hb hb' hb hb'
  · rw [ha, hb]
  · exact absurd h (by decide)
  · exact (hne (by decide) h).elim
  · exact absurd h (by decide)
  · rw [ha', hb']
  · exact (hne (by decide) h).elim
  · exact (hne (by decide) h.symm).elim
  · exact (hne (by decide) h.symm).elim
  · exact hplain (cons.inj h).2

theorem evidenceDigest_hex (bytes : List UInt8) :
    evidenceDigest bytes ≠ [] ∧ ∀ x ∈ evidenceDigest bytes, isTagSeparator x = false := by
  have hhex {t : Text} (h : t.any isTagSeparator = false) : ∀ x ∈ t, isTagSeparator x = false := by simpa using h
  unfold evidenceDigest
  split_ifs
  · exact ⟨by decide, hhex (by decide)⟩
  · exact ⟨by decide, hhex (by decide)⟩
  · refine ⟨cons_ne_nil _ _, fun x hx => ?_⟩
    rcases mem_cons.mp hx with rfl | hx
    · rfl
    · obtain ⟨b, -, rfl⟩ := mem_map.mp hx
      have hcode := toNat_digestPlain b
      simp only [isTagSeparator, decide_eq_false_iff_not, mem_cons, not_mem_nil, or_false, not_or]
      refine ⟨?_, ?_, ?_, ?_, ?_⟩ <;> intro h <;> rw [h] at hcode <;> simp at hcode <;> omega

theorem uploaded_readable (x y : String × Content) : (uploaded x y).Readable where
  nonempty := cons_ne_nil _ _
  read := by
    intro artifactId hmem
    simp only [uploaded, mem_cons, not_mem_nil, or_false] at hmem ⊢
    split_ifs with hx hy
    · rfl
    · rfl
    · exact (hmem.elim hx hy).elim

theorem ignoresIdentity_demo : IgnoresIdentity evidenceDigest floodDigest Numerals.nat
    (uploaded ("artifact_a", photo) ("artifact_b", report)) (uploaded ("artifact_c", photo) ("artifact_d", report)) := by
  apply (ignoresIdentity_iff evidenceDigest_injective evidenceDigest_hex floodDigest_injective floodDigest_plain
    (uploaded_readable _ _) (uploaded_readable _ _)).mpr
  intro _
  decide

theorem reordered_hash : ¬ ∀ e e' : Evidence, e.Readable → e'.Readable →
    (computeEvidenceContentHash evidenceDigest e = computeEvidenceContentHash evidenceDigest e' ↔
      e.contents.Perm e'.contents) := by
  intro h
  have hread := uploaded_readable ("artifact_a", photo) ("artifact_b", report)
  have hread' := uploaded_readable ("artifact_d", photo) ("artifact_c", report)
  have hsame := (h _ _ hread hread').mpr (by decide)
  rw [hash_eq_iff evidenceDigest_injective hread hread'] at hsame
  exact absurd hsame (by decide)

end Soter.AiCache
