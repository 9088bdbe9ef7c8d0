import Kwe.Daemon.StoreFormat

/-!
The stores of assignments and permissions against all or nothing: each is a durable
service, whose writes leave a failed call's text behind only after the rename.

* `stores_durable_iff`: when every call of every run is all or nothing.
-/

namespace Kwe.Daemon

open Foundation Foundation.Durable Foundation.Runs Kwe.Supervisor
open Std (ExtTreeMap)

/-! ## Writes -/

/-- The file is replaced, but its directory cannot be opened or synced. -/
def FailsLate (fails : FileOperation → Bool) : Prop :=
  (∀ op ∈ untilRename, fails op = false) ∧ ∃ op ∈ afterRename, fails op = true

theorem performAll_append (fails : FileOperation → Bool) (contents : ByteArray)
    (ops ops' : List FileOperation) (file : Option ByteArray) :
    performAll fails contents (ops ++ ops') file =
      match performAll fails contents ops file with
      | (.ok (), file) => performAll fails contents ops' file
      | (.error op, file) => (.error op, file) := by
  induction ops generalizing file with
  | nil => rfl
  | cons op ops ih =>
    rw [List.cons_append, performAll, performAll]
    split
    · rfl
    · exact ih _

/-- Operations of which only the last may be the rename. -/
theorem performAll_error {fails : FileOperation → Bool} {contents : ByteArray}
    (ops : List FileOperation) {last op : FileOperation} (hops : .rename ∉ ops)
    {file file' : Option ByteArray}
    (h : performAll fails contents (ops ++ [last]) file = (.error op, file')) :
    file' = file ∧ ∃ op ∈ ops ++ [last], fails op = true := by
  induction ops with
  | nil =>
    rw [List.nil_append, performAll] at h
    split at h
    · rename_i hlast
      exact ⟨(Prod.mk.inj h).2.symm, last, by simp, hlast⟩
    · exact nomatch (Prod.mk.inj h).1
  | cons first ops ih =>
    rw [List.mem_cons, not_or] at hops
    rw [List.cons_append, performAll] at h
    split at h
    · rename_i hfirst
      exact ⟨(Prod.mk.inj h).2.symm, first, by simp, hfirst⟩
    · have hsame : first.apply contents file = file := by
        cases first <;> first | rfl | exact absurd rfl hops.1
      rw [hsame] at h
      obtain ⟨hfile, op, hmem, hop⟩ := ih hops.2 h
      exact ⟨hfile, op, List.mem_cons_of_mem _ hmem, hop⟩

theorem performAll_ok {fails : FileOperation → Bool} {contents : ByteArray}
    {ops : List FileOperation} {file file' : Option ByteArray}
    (h : performAll fails contents ops file = (.ok (), file')) :
    (∀ op ∈ ops, fails op = false) ∧
      file' = ops.foldl (fun file op => op.apply contents file) file := by
  induction ops generalizing file with
  | nil => exact ⟨nofun, (Prod.mk.inj h).2.symm⟩
  | cons op ops ih =>
    rw [performAll] at h
    split at h
    · exact nomatch (Prod.mk.inj h).1
    · rename_i hop
      obtain ⟨hfine, hfile⟩ := ih h
      exact ⟨List.forall_mem_cons.mpr ⟨Bool.not_eq_true _ ▸ hop, hfine⟩, hfile⟩

theorem atomicWrite_ok {fails : FileOperation → Bool} {contents : ByteArray}
    {file file' : Option ByteArray} (h : atomicWrite fails contents file = (.ok (), file')) :
    file' = some contents :=
  (performAll_ok h).2

/-- A write that fails: after the rename, or before. -/
theorem atomicWrite_error {fails : FileOperation → Bool} {contents : ByteArray}
    {file file' : Option ByteArray} {op : FileOperation}
    (h : atomicWrite fails contents file = (.error op, file')) :
    (FailsLate fails ∧ file' = some contents) ∨ (¬ FailsLate fails ∧ file' = file) := by
  rw [atomicWrite, performAll_append] at h
  split at h
  · rename_i renamed hrename
    obtain ⟨hfine, rfl⟩ := performAll_ok hrename
    obtain ⟨hfile, hafter⟩ := performAll_error [.openDirectory] (by decide) h
    exact .inl ⟨⟨hfine, hafter⟩, hfile⟩
  · rename_i op' file'' hrename
    obtain ⟨-, rfl⟩ := Prod.mk.inj h
    obtain ⟨hfile, op, hmem, hop⟩ := performAll_error
      [.ensurePrivateDir, .create, .write, .syncContents] (by decide) hrename
    exact .inr ⟨fun hlate => absurd (hlate.1 op hmem) (by simp [hop]), hfile⟩

/-! ## Calls -/

/-- A request, and the file operations that fail while it is served. -/
structure Call (ρ : Type) where
  request : ρ
  fails : FileOperation → Bool

/-- When a call is all or nothing: unless its write fails late, or writes what is there. -/
def AllOrNothing {ρ σ α : Type} (m : Service (Call ρ) σ String FileOperation α) (s : Store σ) :
    Event (Call ρ) → Prop
  | .call c => FailsLate c.fails → ∀ a, m.plan c s.memory = .replace a →
      (m.kind.encode (m.target c s.memory)).size ≤ m.kind.limit →
      s.file = some (m.kind.encode (m.target c s.memory))
  | .reopen => True

theorem writesWhole_iff {ρ σ α : Type} {m : Service (Call ρ) σ String FileOperation α}
    (hwrite : ∀ c, m.write c = atomicWrite c.fails) (s : Store σ) (e : Event (Call ρ)) :
    m.WritesWhole s e ↔ AllOrNothing m s e := by
  cases e with
  | reopen => exact Iff.rfl
  | call c =>
    rw [Service.WritesWhole, AllOrNothing, hwrite]
    constructor
    · intro hwhole hlate a hplan hsize
      cases hresult : atomicWrite c.fails (m.kind.encode (m.target c s.memory)) s.file with
      | mk result file =>
        cases result with
        | ok _ =>
          -- no operation failed
          obtain ⟨op, hmem, hop⟩ := hlate.2
          have hfine := (performAll_ok hresult).1 op (List.mem_append_right _ hmem)
          exact absurd hop (by simp [hfine])
        | error op =>
          have hfile := hwhole a hplan hsize op file hresult
          rcases atomicWrite_error hresult with ⟨-, hnew⟩ | ⟨hnot, -⟩
          · exact hfile.symm.trans hnew
          · exact absurd hlate hnot
    · intro hwhole a hplan hsize op file hresult
      rcases atomicWrite_error hresult with ⟨hlate, hnew⟩ | ⟨-, hold⟩
      · exact hnew.trans (hwhole hlate a hplan hsize).symm
      · exact hold

/-! ## Maps of records -/

section Maps

variable {β : Type} {entries : ExtTreeMap String β} {p : String × β → Bool}

theorem all_toList_iff :
    entries.toList.all p = true ↔ ∀ key value, entries[key]? = some value → p (key, value) = true := by
  simp only [List.all_eq_true, Prod.forall, ExtTreeMap.mem_toList_iff_getElem?_eq_some]

theorem all_insert (h : entries.toList.all p = true) {key : String} {value : β}
    (hp : p (key, value) = true) : (entries.insert key value).toList.all p = true := by
  rw [all_toList_iff] at h ⊢
  intro key' value' hvalue
  rw [ExtTreeMap.getElem?_insert] at hvalue
  split at hvalue
  next hkey =>
    obtain rfl := Std.LawfulEqCmp.eq_of_compare hkey
    exact Option.some.inj hvalue ▸ hp
  next => exact h key' value' hvalue

theorem all_erase (h : entries.toList.all p = true) (key : String) :
    (entries.erase key).toList.all p = true := by
  rw [all_toList_iff] at h ⊢
  intro key' value' hvalue
  rw [ExtTreeMap.getElem?_erase] at hvalue
  split at hvalue
  next => exact nomatch hvalue
  next => exact h key' value' hvalue

theorem size_insert_le {limit : Nat} {key : String} (hsize : entries.size ≤ limit)
    (hroom : ¬ (entries.contains key = false ∧ limit ≤ entries.size)) (value : β) :
    (entries.insert key value).size ≤ limit := by
  rw [ExtTreeMap.size_insert]
  split
  · exact hsize
  · rename_i hkey
    have hcontains : entries.contains key = false :=
      Bool.eq_false_iff.mpr fun h => hkey (ExtTreeMap.contains_iff_mem.mp h)
    have hlt : entries.size < limit := Nat.not_le.mp fun hle => hroom ⟨hcontains, hle⟩
    omega

end Maps

/-! ## The stores -/

/-- Another answer to a call. -/
def answer {σ α β : Type} (f : α → β) (result : Except (Failure String FileOperation) α × Store σ) :
    Except (Failure String FileOperation) β × Store σ :=
  (result.1.map f, result.2)

theorem answer_commit {σ α β : Type} (f : α → β) (k : Kind σ) (write : Write FileOperation)
    (next : σ) (a : α) (s : Store σ) :
    answer f (k.commit write next a s) = k.commit write next (f a) s := by
  rw [Kind.commit, Kind.commit]
  split
  · rfl
  · split <;> rfl

inductive AssignmentRequest
  | set (output : String) (assignment : Assignment)
  | remove (output : String)

inductive AssignmentReply
  | set
  | removed (existed : Bool)

namespace AssignmentStore

variable (codec : Codec PersistedAssignments)

def call (c : Call AssignmentRequest) (s : AssignmentStore) :
    Except (Failure String FileOperation) AssignmentReply × AssignmentStore :=
  match c.request with
  | .set output assignment => answer (fun _ => .set) (set codec c.fails output assignment s)
  | .remove output => answer .removed (remove codec c.fails output s)

/-- What becomes of the state. -/
def target (c : Call AssignmentRequest) (state : PersistedAssignments) : PersistedAssignments :=
  match c.request with
  | .set output assignment => { state with outputs := state.outputs.insert output assignment }
  | .remove output =>
    if state.outputs.contains output then { state with outputs := state.outputs.erase output }
    else state

def plan (c : Call AssignmentRequest) (state : PersistedAssignments) : Plan String AssignmentReply :=
  match c.request with
  | .set output assignment =>
    match validateAssignment output assignment with
    | .error detail => .refuse detail
    | .ok () =>
      if state.outputs.contains output = false ∧ maxAssignedOutputs ≤ state.outputs.size then
        .refuse "assignment count exceeds the 16 output safety limit"
      else .replace .set
  | .remove output =>
    if state.outputs.contains output then .replace (.removed true) else .keep (.removed false)

def service : Service (Call AssignmentRequest) PersistedAssignments String FileOperation
    AssignmentReply where
  kind := kind codec
  call := call codec
  plan := plan
  target := target
  write c := atomicWrite c.fails

theorem kind_check {state : PersistedAssignments} :
    (kind codec).check state = true ↔ state.schemaVersion = 1 ∧
      state.outputs.size ≤ maxAssignedOutputs ∧
        state.outputs.toList.all (fun entry => (validateAssignment entry.1 entry.2).isOk) = true := by
  simp [kind, and_assoc]

variable {codec} in
theorem service_lawful (hcodec : codec.RoundTrip) : (service codec).Lawful where
  call c s := by
    rw [Service.planned]
    simp only [service, call, plan, target]
    cases c.request with
    | set output assignment =>
      simp only [set]
      cases hvalid : validateAssignment output assignment with
      | error detail => rfl
      | ok _ =>
        dsimp only
        split
        · rfl
        · exact answer_commit _ _ _ _ _ _
    | remove output =>
      simp only [remove]
      split
      · exact answer_commit _ _ _ _ _ _
      · rfl
  roundTrip := hcodec
  fresh := by simp [service, kind, PersistedAssignments.default]
  keep c state a hplan := by
    simp only [service, plan, target] at hplan ⊢
    cases hrequest : c.request with
    | set output assignment =>
      rw [hrequest] at hplan
      dsimp only at hplan
      repeat' split at hplan
      all_goals exact nomatch hplan
    | remove output =>
      rw [hrequest] at hplan
      dsimp only at hplan ⊢
      split at hplan
      · exact nomatch hplan
      · rename_i hnone
        rw [if_neg hnone]
  replace c state a hcheck hplan := by
    rw [service, kind_check] at hcheck ⊢
    obtain ⟨hschema, hsize, hall⟩ := hcheck
    simp only [service, plan, target] at hplan ⊢
    cases hrequest : c.request with
    | set output assignment =>
      rw [hrequest] at hplan
      dsimp only at hplan ⊢
      split at hplan
      · exact nomatch hplan
      rename_i hvalid
      split at hplan
      · exact nomatch hplan
      rename_i hroom
      exact ⟨hschema, size_insert_le hsize hroom assignment, all_insert hall (by simp [hvalid, Except.isOk, Except.toBool])⟩
    | remove output =>
      dsimp only
      split
      · exact ⟨hschema, (ExtTreeMap.size_erase_le).trans hsize, all_erase hall output⟩
      · exact ⟨hschema, hsize, hall⟩
  written c bytes file file' h := atomicWrite_ok h
  failed c bytes file e file' h := (atomicWrite_error h).symm.imp And.right And.right

end AssignmentStore

namespace GrantStore

/-- The arguments of `set`. -/
structure Request where
  wallpaperId : String
  patch : GrantPatch

variable (codec : Codec PersistedGrants)

def call (c : Call Request) (s : GrantStore) :
    Except (Failure String FileOperation) Grant × GrantStore :=
  set codec c.fails c.request.wallpaperId c.request.patch s

def target (c : Call Request) (state : PersistedGrants) : PersistedGrants :=
  { state with
    grants := state.grants.insert c.request.wallpaperId
      (c.request.patch.apply (grant state c.request.wallpaperId)) }

def plan (c : Call Request) (state : PersistedGrants) : Plan String Grant :=
  match validateIdentityPart "wallpaper_id" c.request.wallpaperId with
  | .error detail => .refuse detail
  | .ok () =>
    if state.grants.contains c.request.wallpaperId = false ∧ maxGrants ≤ state.grants.size then
      .refuse "permission grant count exceeds the 256 safety limit"
    else .replace (c.request.patch.apply (grant state c.request.wallpaperId))

def service : Service (Call Request) PersistedGrants String FileOperation Grant where
  kind := kind codec
  call := call codec
  plan := plan
  target := target
  write c := atomicWrite c.fails

theorem kind_check {state : PersistedGrants} :
    (kind codec).check state = true ↔ state.schemaVersion = 1 ∧ state.grants.size ≤ maxGrants ∧
      state.grants.toList.all
        (fun entry => (validateIdentityPart "wallpaper_id" entry.1).isOk) = true := by
  simp [kind, and_assoc]

variable {codec} in
theorem service_lawful (hcodec : codec.RoundTrip) : (service codec).Lawful where
  call c s := by
    rw [Service.planned]
    simp only [service, call, plan, target, set]
    cases hvalid : validateIdentityPart "wallpaper_id" c.request.wallpaperId with
    | error detail => rfl
    | ok _ =>
      dsimp only
      split <;> rfl
  roundTrip := hcodec
  fresh := by simp [service, kind, PersistedGrants.default]
  keep c state a hplan := by
    simp only [service, plan] at hplan
    repeat' split at hplan
    all_goals exact nomatch hplan
  replace c state a hcheck hplan := by
    rw [service, kind_check] at hcheck ⊢
    obtain ⟨hschema, hsize, hall⟩ := hcheck
    simp only [service, plan, target] at hplan ⊢
    split at hplan
    · exact nomatch hplan
    rename_i hvalid
    split at hplan
    · exact nomatch hplan
    rename_i hroom
    exact ⟨hschema, size_insert_le hsize hroom _, all_insert hall (by simp [hvalid, Except.isOk, Except.toBool])⟩
  written c bytes file file' h := atomicWrite_ok h
  failed c bytes file e file' h := (atomicWrite_error h).symm.imp And.right And.right

end GrantStore

/-! ## Runs -/

theorem service_durable_iff {ρ σ α : Type} {m : Service (Call ρ) σ String FileOperation α}
    (hm : m.Lawful) (hwrite : ∀ c, m.write c = atomicWrite c.fails) (file : Option ByteArray)
    (events : List (Event (Call ρ))) :
    Along m.step m.Readable (m.kind.opened file) events ∧
      (Along m.step m.Right (m.kind.opened file) events ↔
        Along m.step (AllOrNothing m) (m.kind.opened file) events) := by
  have hholds := opened_holds hm.fresh file
  refine ⟨readable_run hm hholds.legible events, ?_⟩
  rw [right_run_iff hm hholds]
  refine along_congr (I := fun _ => True) (C := fun _ _ => True) (fun _ _ _ _ _ => trivial)
    (fun s e _ _ => writesWhole_iff hwrite s e) trivial (along_of_forall (fun _ _ => trivial) _ _)

/-- **Stores.**  Of both stores, opened with any file: what calls write is accepted, and
all calls of a run are all or nothing just when none that changes the file fails late. -/
theorem stores_durable_iff {assignments : Codec PersistedAssignments}
    {grants : Codec PersistedGrants} (hassignments : assignments.RoundTrip)
    (hgrants : grants.RoundTrip) :
    (∀ file events,
      Along (AssignmentStore.service assignments).step (AssignmentStore.service assignments).Readable
          (AssignmentStore.openStore assignments file) events ∧
        (Along (AssignmentStore.service assignments).step
            (AssignmentStore.service assignments).Right
            (AssignmentStore.openStore assignments file) events ↔
          Along (AssignmentStore.service assignments).step
            (AllOrNothing (AssignmentStore.service assignments))
            (AssignmentStore.openStore assignments file) events)) ∧
    (∀ file events,
      Along (GrantStore.service grants).step (GrantStore.service grants).Readable
          (GrantStore.openStore grants file) events ∧
        (Along (GrantStore.service grants).step (GrantStore.service grants).Right
            (GrantStore.openStore grants file) events ↔
          Along (GrantStore.service grants).step (AllOrNothing (GrantStore.service grants))
            (GrantStore.openStore grants file) events)) :=
  ⟨fun file events => service_durable_iff (AssignmentStore.service_lawful hassignments)
      (fun _ => rfl) file events,
    fun file events => service_durable_iff (GrantStore.service_lawful hgrants)
      (fun _ => rfl) file events⟩

theorem stores_durable_iff_text :
    Along (GrantStore.service (codecOf grantsText)).step
      (GrantStore.service (codecOf grantsText)).Readable
      (GrantStore.openStore (codecOf grantsText) none) [.reopen] :=
  ((stores_durable_iff (codecOf_roundTrip assignmentsText) (codecOf_roundTrip grantsText)).2
    none [.reopen]).1

/-! ## A directory that does not sync -/

/-- Granting the network to one wallpaper, on a disk that fails to sync the directory. -/
def grantUnsynced : Call GrantStore.Request where
  request := ⟨"a", ⟨some true, none, none⟩⟩
  fails op := op = .syncDirectory

def granted : PersistedGrants := ⟨1, (∅ : ExtTreeMap String Grant).insert "a" ⟨true, false, true⟩⟩

theorem target_grantUnsynced : GrantStore.target grantUnsynced .default = granted := by
  simp [GrantStore.target, grantUnsynced, PersistedGrants.default, granted, GrantStore.grant,
    GrantPatch.apply, Grant.defaults]

theorem size_granted : ((codecOf grantsText).toVecPretty granted).size ≤ maxGrantBytes := by
  have hentry : ∀ entry ∈ granted.grants.toList,
      (((Format.quoted.after ": \x7b".toList).seq grantText).write entry).length ≤ 100 := by
    rintro ⟨id, grant⟩ hmem
    rw [ExtTreeMap.mem_toList_iff_getElem?_eq_some, granted, ExtTreeMap.getElem?_insert] at hmem
    split at hmem
    · rename_i hid
      obtain rfl := Std.LawfulEqCmp.eq_of_compare hid
      obtain rfl := Option.some.inj hmem
      decide
    · simp at hmem
  have hone : granted.grants.size = 1 := by simp [granted, ExtTreeMap.size_insert]
  have hlength : (grantsText.write granted).length ≤ 100 + granted.grants.size * (6 + 100) :=
    length_fileText_le (by decide) hentry
  have hsize := size_codecOf_le grantsText granted
  rw [hone] at hlength
  exact hsize.trans (by rw [maxGrantBytes]; omega)

/-- The call fails, and its text stays. -/
theorem not_right_grantUnsynced {s : GrantStore} (hmemory : s.memory = .default)
    (hfile : s.file = none)
    (hholds : (GrantStore.service (codecOf grantsText)).kind.Holds s) :
    ¬ (GrantStore.service (codecOf grantsText)).Right s (.call grantUnsynced) := by
  have hlate : FailsLate grantUnsynced.fails :=
    ⟨by decide, .syncDirectory, by decide, by decide⟩
  have hplan : GrantStore.plan grantUnsynced s.memory = .replace ⟨true, false, true⟩ := by
    have hid : validateIdentityPart "wallpaper_id" "a" = .ok () := by decide
    simp [GrantStore.plan, grantUnsynced, hid, hmemory, PersistedGrants.default, maxGrants,
      GrantStore.grant, GrantPatch.apply, Grant.defaults]
  have hsize := size_granted
  rw [← target_grantUnsynced, ← hmemory] at hsize
  rw [right_iff (GrantStore.service_lawful (codecOf_roundTrip grantsText)) hholds,
    writesWhole_iff fun _ => rfl]
  intro hwhole
  exact nomatch hfile.symm.trans (hwhole hlate _ hplan hsize)

theorem grant_written_unsynced :
    ¬ Along (GrantStore.service (codecOf grantsText)).step
      (GrantStore.service (codecOf grantsText)).Right
      (GrantStore.openStore (codecOf grantsText) none) [.call grantUnsynced] := by
  have hlawful := GrantStore.service_lawful (codecOf_roundTrip grantsText)
  have hmemory : (GrantStore.openStore (codecOf grantsText) none).memory = .default := rfl
  have hfile : (GrantStore.openStore (codecOf grantsText) none).file = none := rfl
  have hholds : (GrantStore.service (codecOf grantsText)).kind.Holds
      (GrantStore.openStore (codecOf grantsText) none) := opened_holds hlawful.fresh none
  generalize GrantStore.openStore (codecOf grantsText) none = s at hmemory hfile hholds
  exact fun h => not_right_grantUnsynced hmemory hfile hholds h.1

end Kwe.Daemon
