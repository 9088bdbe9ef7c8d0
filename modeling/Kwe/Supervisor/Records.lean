import Kwe.Supervisor.Handlers

/-!
Failure records: the keys of distinct identities are distinct strings, and
`record_failure` decides quarantine by the record a lookup finds, whatever it
migrates or evicts on the way.
-/

namespace Kwe.Supervisor

/-! ## Keys -/

theorem identityPart_not_colon {value : String} (h : identityPart value = true) :
    ':' ∉ value.toList := by
  intro hmem
  simp only [identityPart, Bool.and_eq_true, List.all_eq_true] at h
  exact absurd (h.2 ':' hmem) (by decide)

private theorem cut_eq {a a' b b' : List Char} (ha : ':' ∉ a) (ha' : ':' ∉ a')
    (h : a ++ ':' :: b = a' ++ ':' :: b') : a = a' ∧ b = b' := by
  induction a generalizing a' with
  | nil =>
    cases a' with
    | nil => simpa using h
    | cons c a' => simp at h; simp [← h.1] at ha'
  | cons c a ih =>
    cases a' with
    | nil => simp at h; simp [h.1] at ha
    | cons c' a' =>
      simp only [List.cons_append, List.cons.injEq] at h
      simp only [List.mem_cons, not_or] at ha ha'
      obtain ⟨rfl, rfl⟩ := ih ha.2 ha'.2 h.2
      exact ⟨by rw [h.1], rfl⟩

theorem RendererKind.asStr_injective : Function.Injective RendererKind.asStr := by
  intro k k' h
  cases k <;> cases k' <;> first | rfl | exact absurd h (by decide)

/-- Two specs share a record exactly when they agree on wallpaper, content and
kind. -/
theorem identity_eq_iff (spec spec' : StartSpec) :
    spec.identity = spec'.identity ↔
      spec.wallpaperId = spec'.wallpaperId ∧ spec.contentHash = spec'.contentHash ∧
        spec.kind = spec'.kind := by
  constructor
  · intro h
    have h := congrArg String.toList h
    simp only [StartSpec.identity, String.toList_append, List.append_assoc] at h
    obtain ⟨hw, h⟩ := cut_eq (identityPart_not_colon spec.wallpaperId_ok)
      (identityPart_not_colon spec'.wallpaperId_ok) h
    obtain ⟨hc, hk⟩ := cut_eq (identityPart_not_colon spec.contentHash_ok)
      (identityPart_not_colon spec'.contentHash_ok) h
    exact ⟨String.toList_inj.mp hw, String.toList_inj.mp hc,
      RendererKind.asStr_injective (String.toList_inj.mp hk)⟩
  · rintro ⟨hw, hc, hk⟩
    simp [StartSpec.identity, hw, hc, hk]

/-- A legacy key is never the kind-qualified key of any spec. -/
theorem identity_ne_legacy (spec spec' : StartSpec) : spec.identity ≠ spec'.legacyIdentity := by
  intro h
  have h := congrArg String.toList h
  simp only [StartSpec.identity, StartSpec.legacyIdentity, String.toList_append,
    List.append_assoc] at h
  have hc := (cut_eq (identityPart_not_colon spec.wallpaperId_ok)
    (identityPart_not_colon spec'.wallpaperId_ok) h).2
  refine identityPart_not_colon spec'.contentHash_ok ?_
  have hc : spec.contentHash.toList ++ ':' :: spec.kind.asStr.toList =
      spec'.contentHash.toList := hc
  rw [← hc]
  simp

/-! ## Migration and eviction -/

variable (records : Records) (spec spec' : StartSpec)

theorem Records.migrate_own :
    (records.migrate spec)[spec.identity]? = records.lookup spec := by
  have hne : spec.legacyIdentity ≠ spec.identity := (identity_ne_legacy spec spec).symm
  unfold Records.migrate Records.lookup
  cases hl : records[spec.legacyIdentity]? with
  | none => simp
  | some record =>
    cases ho : records[spec.identity]? with
    | none =>
      have : spec.identity ∉ records.erase spec.legacyIdentity := by
        rw [Std.TreeMap.mem_iff_isSome_getElem?]
        simp [Std.TreeMap.getElem?_erase, hne, ho]
      simp [this]
    | some own =>
      have : spec.identity ∈ records.erase spec.legacyIdentity := by
        rw [Std.TreeMap.mem_iff_isSome_getElem?]
        simp [Std.TreeMap.getElem?_erase, hne, ho]
      simp only [this, if_true, Option.or_some]
      rw [Std.TreeMap.getElem?_erase, if_neg (by simpa using hne), ho, Option.getD_some]

/-- Migration touches no other identity's own record. -/
theorem Records.migrate_other (h : spec'.identity ≠ spec.identity) :
    (records.migrate spec)[spec'.identity]? = records[spec'.identity]? := by
  have hne : spec.legacyIdentity ≠ spec'.identity := (identity_ne_legacy spec' spec).symm
  unfold Records.migrate
  split
  · rfl
  · simp only
    split <;> simp [Std.TreeMap.getElem?_erase, Std.TreeMap.getElem?_insert, hne, h.symm]

theorem Records.evict_own :
    (records.evict spec)[spec.identity]? = records[spec.identity]? := by
  unfold Records.evict
  split
  · rfl
  next key hv =>
    have hnot : spec.identity ∉ records := by
      by_contra hmem
      simp [Records.victim, hmem] at hv
    rw [Std.TreeMap.getElem?_erase, Std.TreeMap.getElem?_eq_none hnot]
    simp

theorem Records.evict_other (h : records.victim spec ≠ some spec'.identity) :
    (records.evict spec)[spec'.identity]? = records[spec'.identity]? := by
  unfold Records.evict
  split
  · rfl
  next key hv =>
    have hne : key ≠ spec'.identity := fun he => h (he ▸ hv)
    rw [Std.TreeMap.getElem?_erase, if_neg (by simpa using hne)]

/-! ## The verdict on a failure -/

/-- The failures on record for `spec`. -/
def Records.failures : Nat := ((records.lookup spec).map FailureRecord.failures).getD 0

/-- Whether one more failure of `spec` is its last before quarantine. -/
def Records.strikesOut (cfg : Config) : Prop := cfg.maxFailures ≤ records.failures spec + 1

instance (cfg : Config) : Decidable (records.strikesOut spec cfg) :=
  inferInstanceAs (Decidable (_ ≤ _))

theorem saturatingSucc32_ge {n m : Nat} (hm : m ≤ 10) :
    m ≤ saturatingSucc32 n ↔ m ≤ n + 1 := by
  unfold saturatingSucc32
  omega

/-- The records after one more failure of `spec`. -/
def Records.struck (records : Records) (cfg : Config) (now : Nat) (kind : FailureKind)
    (detail : String) (spec : StartSpec) : Records :=
  let evicted := (records.migrate spec).evict spec
  evicted.insert spec.identity ((evicted.entry kind spec).strike cfg now kind detail)

/-- The records without those of `spec`. -/
def Records.clear (records : Records) (spec : StartSpec) : Records :=
  (records.erase spec.identity).erase spec.legacyIdentity

theorem entry_failures (kind : FailureKind) :
    (((records.migrate spec).evict spec).entry kind spec).failures = records.failures spec := by
  unfold Records.entry Records.failures
  rw [Records.evict_own, Records.migrate_own]
  cases records.lookup spec <;> rfl

/-- The record of the failing identity after the failure. -/
theorem Records.struck_own (cfg : Config) (now : Nat) (kind : FailureKind) (detail : String) :
    ∃ record, (records.struck cfg now kind detail spec)[spec.identity]? = some record ∧
      (record.quarantined = true ↔ records.strikesOut spec cfg) ∧
      (record.quarantined = true → cfg.maxFailures ≤ record.failures) := by
  refine ⟨_, Std.TreeMap.getElem?_insert_self, ?_, ?_⟩
  · simp [FailureRecord.strike, entry_failures, saturatingSucc32_ge cfg.maxFailures_le,
      Records.strikesOut]
  · simp [FailureRecord.strike]

/-- A failure leaves every other own record alone, unless it evicts it. -/
theorem Records.struck_other {cfg : Config} {now : Nat} {kind : FailureKind} {detail : String}
    (h : spec'.identity ≠ spec.identity)
    (hv : (records.migrate spec).victim spec ≠ some spec'.identity) :
    (records.struck cfg now kind detail spec)[spec'.identity]? = records[spec'.identity]? := by
  unfold Records.struck
  rw [Std.TreeMap.getElem?_insert, if_neg (by simpa using h.symm), Records.evict_other _ _ _ hv,
    Records.migrate_other _ _ _ h]

/-- Clearing removes the own record of no other identity. -/
theorem Records.clear_other (h : spec'.identity ≠ spec.identity) :
    (records.clear spec)[spec'.identity]? = records[spec'.identity]? := by
  have hl : spec.legacyIdentity ≠ spec'.identity := (identity_ne_legacy spec' spec).symm
  simp [Records.clear, Std.TreeMap.getElem?_erase, hl, h.symm]

theorem Records.clear_own : (records.clear spec)[spec.identity]? = none := by
  have hl : spec.legacyIdentity ≠ spec.identity := (identity_ne_legacy spec spec).symm
  simp [Records.clear, hl]


@[simp] theorem recordFailure_records (cfg : Config) (io : Io) (kind : FailureKind)
    (detail : String) (spec : StartSpec) (s : State) :
    (recordFailure cfg io kind detail spec s).2.persisted.records =
      s.persisted.records.struck cfg io.unixSeconds kind detail spec := by
  simp only [recordFailure, saveOrLog, saveState]
  cases io.save 1 <;> rfl

theorem recordFailure_fst (cfg : Config) (io : Io) (kind : FailureKind) (detail : String)
    (spec : StartSpec) (s : State) :
    (recordFailure cfg io kind detail spec s).1 =
      decide (s.persisted.records.strikesOut spec cfg) := by
  simp only [recordFailure, FailureRecord.strike, entry_failures]
  exact decide_eq_decide.mpr (saturatingSucc32_ge cfg.maxFailures_le)

/-- `recordFailure` answers whether the identity struck out. -/
theorem recordFailure_eq (cfg : Config) (io : Io) (kind : FailureKind) (detail : String)
    (spec : StartSpec) (s : State) :
    recordFailure cfg io kind detail spec s =
      (decide (s.persisted.records.strikesOut spec cfg),
        (recordFailure cfg io kind detail spec s).2) :=
  Prod.ext (recordFailure_fst cfg io kind detail spec s) rfl

end Kwe.Supervisor
