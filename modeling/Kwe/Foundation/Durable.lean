import Kwe.Foundation.Runs

/-!
Stores that keep a state in memory and its text in a file.  A call checks its request,
replaces the file and then takes over the new state.

* `right_iff`: a call is all or nothing just when its write is;
* `right_run_iff`: so is every call of a run;
* `readable_run`: whatever fails, what was written can be read.
-/

namespace Foundation.Durable

open Runs

/-- How a kind of store writes and reads its file. -/
structure Kind (σ : Type) where
  encode : σ → ByteArray
  decode : ByteArray → Option σ
  /-- The size of a text. -/
  limit : Nat
  /-- The state without a file. -/
  fresh : σ
  /-- What is checked of a state that was read. -/
  check : σ → Bool

structure Store (σ : Type) where
  memory : σ
  file : Option ByteArray

/-- How a write ends, and the file after it. -/
abbrev Write (ω : Type) := ByteArray → Option ByteArray → Except ω Unit × Option ByteArray

inductive Failure (ε ω : Type)
  | refused (e : ε)
  | tooLarge
  | io (e : ω)

/-- What a call does with a state: it refuses, it answers, or it replaces the state. -/
inductive Plan (ε α : Type)
  | refuse (e : ε)
  | keep (a : α)
  | replace (a : α)

/-- The calls of a store, with their plans, the states they aim at and their writes. -/
structure Service (κ σ ε ω α : Type) where
  kind : Kind σ
  call : κ → Store σ → Except (Failure ε ω) α × Store σ
  plan : κ → σ → Plan ε α
  target : κ → σ → σ
  write : κ → Write ω

inductive Event (κ : Type)
  | call (c : κ)
  | reopen

variable {κ σ ε ω α : Type}

namespace Kind

variable (k : Kind σ)

/-- The state that is read; none if the file is set aside. -/
def read : Option ByteArray → Option σ
  | none => some k.fresh
  | some bytes =>
    if k.limit < bytes.size then none
    else
      match k.decode bytes with
      | none => none
      | some s => if k.check s then some s else none

def opened (file : Option ByteArray) : Store σ :=
  match k.read file with
  | some s => ⟨s, file⟩
  | none => ⟨k.fresh, none⟩

/-- Replaces the file, and then the state. -/
def commit (write : Write ω) (next : σ) (a : α) (s : Store σ) :
    Except (Failure ε ω) α × Store σ :=
  if k.limit < (k.encode next).size then (.error .tooLarge, s)
  else
    match write (k.encode next) s.file with
    | (.ok (), file) => (.ok a, ⟨next, file⟩)
    | (.error e, file) => (.error (.io e), ⟨s.memory, file⟩)

/-- The memory is what the file says. -/
structure Holds (s : Store σ) : Prop where
  check : k.check s.memory = true
  read : k.read s.file = some s.memory

/-- The state is one to be written, and the file can be read. -/
structure Legible (s : Store σ) : Prop where
  check : k.check s.memory = true
  read : (k.read s.file).isSome = true

end Kind

namespace Service

variable (m : Service κ σ ε ω α)

/-- A call that follows its plan. -/
def planned (c : κ) (s : Store σ) : Except (Failure ε ω) α × Store σ :=
  match m.plan c s.memory with
  | .refuse e => (.error (.refused e), s)
  | .keep a => (.ok a, s)
  | .replace a => m.kind.commit (m.write c) (m.target c s.memory) a s

def step (s : Store σ) : Event κ → Store σ
  | .call c => (m.call c s).2
  | .reopen => m.kind.opened s.file

/-- A call that fails changes nothing; after one that does not, memory and file are the
new state.  Opening the file again changes nothing. -/
def Right (s : Store σ) : Event κ → Prop
  | .call c =>
    match m.call c s with
    | (.error _, after) => after = s
    | (.ok _, after) =>
      after.memory = m.target c s.memory ∧
        m.kind.read after.file = some (m.target c s.memory)
  | .reopen => m.kind.opened s.file = s

/-- A file that a call wrote is accepted, with the new state; no file is set aside. -/
def Readable (s : Store σ) : Event κ → Prop
  | .call c =>
    (m.call c s).2.file = s.file ∨
      m.kind.read (m.call c s).2.file = some (m.target c s.memory)
  | .reopen => (m.kind.opened s.file).file = s.file

/-- A write that fails leaves the file as it is. -/
def WritesWhole (s : Store σ) : Event κ → Prop
  | .call c => ∀ a, m.plan c s.memory = .replace a →
      (m.kind.encode (m.target c s.memory)).size ≤ m.kind.limit →
      ∀ e file, m.write c (m.kind.encode (m.target c s.memory)) s.file = (.error e, file) →
        file = s.file
  | .reopen => True

/-- What is relied on. -/
structure Lawful : Prop where
  call : ∀ c s, m.call c s = m.planned c s
  roundTrip : ∀ s, m.kind.decode (m.kind.encode s) = some s
  fresh : m.kind.check m.kind.fresh = true
  keep : ∀ c s a, m.plan c s = .keep a → m.target c s = s
  replace : ∀ c s a, m.kind.check s = true → m.plan c s = .replace a →
    m.kind.check (m.target c s) = true
  written : ∀ c bytes file file', m.write c bytes file = (.ok (), file') → file' = some bytes
  failed : ∀ c bytes file e file', m.write c bytes file = (.error e, file') →
    file' = file ∨ file' = some bytes

end Service

variable {m : Service κ σ ε ω α}

theorem read_encode (hm : m.Lawful) {s : σ} (hsize : (m.kind.encode s).size ≤ m.kind.limit)
    (hcheck : m.kind.check s = true) : m.kind.read (some (m.kind.encode s)) = some s := by
  simp [Kind.read, Nat.not_lt.mpr hsize, hm.roundTrip, hcheck]

theorem check_read {k : Kind σ} (hfresh : k.check k.fresh = true) {file : Option ByteArray}
    {s : σ} (h : k.read file = some s) : k.check s = true := by
  cases file with
  | none => exact Option.some.inj h ▸ hfresh
  | some bytes =>
    rw [Kind.read] at h
    split at h
    · exact nomatch h
    · split at h
      · exact nomatch h
      · split at h
        · rename_i hcheck
          exact Option.some.inj h ▸ hcheck
        · exact nomatch h

/-- A store that is opened holds what its file says. -/
theorem opened_holds {k : Kind σ} (hfresh : k.check k.fresh = true) (file : Option ByteArray) :
    k.Holds (k.opened file) := by
  rw [Kind.opened]
  cases hread : k.read file with
  | some s => exact ⟨check_read hfresh hread, hread⟩
  | none => exact ⟨hfresh, rfl⟩

theorem Kind.Holds.opened {k : Kind σ} {s : Store σ} (h : k.Holds s) : k.opened s.file = s := by
  simp [Kind.opened, h.read]

theorem Kind.Holds.legible {k : Kind σ} {s : Store σ} (h : k.Holds s) : k.Legible s :=
  ⟨h.check, by simp [h.read]⟩

/-- What a call does. -/
theorem call_cases (hm : m.Lawful) (c : κ) (s : Store σ) :
    (∃ e, ((∀ a, m.plan c s.memory ≠ .replace a) ∨
        m.kind.limit < (m.kind.encode (m.target c s.memory)).size) ∧
      m.call c s = (.error e, s)) ∨
    (∃ a, m.plan c s.memory = .keep a ∧ m.call c s = (.ok a, s)) ∨
    (∃ a, m.plan c s.memory = .replace a ∧
      (m.kind.encode (m.target c s.memory)).size ≤ m.kind.limit ∧
      ((∃ file, m.write c (m.kind.encode (m.target c s.memory)) s.file = (.ok (), file) ∧
          m.call c s = (.ok a, ⟨m.target c s.memory, file⟩)) ∨
        ∃ e file, m.write c (m.kind.encode (m.target c s.memory)) s.file = (.error e, file) ∧
          m.call c s = (.error (.io e), ⟨s.memory, file⟩))) := by
  rw [hm.call, Service.planned]
  cases hplan : m.plan c s.memory with
  | refuse e => exact .inl ⟨_, .inl nofun, rfl⟩
  | keep a => exact .inr (.inl ⟨a, rfl, rfl⟩)
  | replace a =>
    dsimp only
    rw [Kind.commit]
    by_cases hlarge : m.kind.limit < (m.kind.encode (m.target c s.memory)).size
    · rw [if_pos hlarge]
      exact .inl ⟨_, .inr hlarge, rfl⟩
    rw [if_neg hlarge]
    refine .inr (.inr ⟨a, rfl, Nat.not_lt.mp hlarge, ?_⟩)
    cases hwrite : m.write c (m.kind.encode (m.target c s.memory)) s.file with
    | mk result file =>
      cases result with
      | ok _ => exact .inl ⟨file, rfl, rfl⟩
      | error e => exact .inr ⟨e, file, rfl, rfl⟩

/-- **Calls.**  From a store that holds what its file says, a call is all or nothing just
when its write is. -/
theorem right_iff (hm : m.Lawful) {s : Store σ} (h : m.kind.Holds s) (e : Event κ) :
    m.Right s e ↔ m.WritesWhole s e := by
  cases e with
  | reopen => exact iff_of_true h.opened trivial
  | call c =>
    rw [Service.Right, Service.WritesWhole]
    rcases call_cases hm c s with ⟨e, hplan, hcall⟩ | ⟨a, hplan, hcall⟩ | ⟨a, hplan, hsize, hwrite⟩
    · rw [hcall]
      refine iff_of_true rfl fun a hreplace hsize => ?_
      rcases hplan with hrefuse | hlarge
      · exact absurd hreplace (hrefuse a)
      · omega
    · rw [hcall]
      refine iff_of_true ?_ fun b hreplace => absurd (hplan.symm.trans hreplace) nofun
      rw [hm.keep c s.memory a hplan]
      exact ⟨rfl, h.read⟩
    · rcases hwrite with ⟨file, hwrite, hcall⟩ | ⟨e, file, hwrite, hcall⟩
      · rw [hcall]
        refine iff_of_true ⟨rfl, ?_⟩ fun _ _ _ e file' herror => nomatch hwrite.symm.trans herror
        rw [hm.written c _ _ file hwrite]
        exact read_encode hm hsize (hm.replace c s.memory a h.check hplan)
      · rw [hcall]
        constructor
        · intro hsame _ _ _ e' file' herror
          obtain ⟨-, rfl⟩ := Prod.mk.inj (hwrite.symm.trans herror)
          exact congrArg Store.file hsame
        · intro hwhole
          rw [hwhole a hplan hsize e file hwrite]

/-- A right step goes from a store that holds what its file says to another. -/
theorem Right.holds (hm : m.Lawful) {s : Store σ} (h : m.kind.Holds s) {e : Event κ}
    (hright : m.Right s e) : m.kind.Holds (m.step s e) := by
  cases e with
  | reopen => exact opened_holds hm.fresh s.file
  | call c =>
    rw [Service.Right] at hright
    rw [Service.step]
    rcases call_cases hm c s with ⟨e, hplan, hcall⟩ | ⟨a, hplan, hcall⟩ | ⟨a, hplan, hsize, hwrite⟩
    · rwa [hcall]
    · rwa [hcall]
    · rcases hwrite with ⟨file, -, hcall⟩ | ⟨e, file, -, hcall⟩
      · rw [hcall] at hright ⊢
        exact ⟨hm.replace c s.memory a h.check hplan, hright.2⟩
      · rw [hcall] at hright ⊢
        exact hright ▸ h

/-- **Runs.**  All calls of a run are all or nothing just when their writes are. -/
theorem right_run_iff (hm : m.Lawful) {s : Store σ} (h : m.kind.Holds s) (es : List (Event κ)) :
    Along m.step m.Right s es ↔ Along m.step m.WritesWhole s es := by
  refine along_congr (I := m.kind.Holds) (C := fun _ _ => True) ?_ ?_ h
    (along_of_forall (fun _ _ => trivial) s es)
  · exact fun s e hs _ hright => Right.holds hm hs hright
  · exact fun s e hs _ => right_iff hm hs e

/-- Whatever fails, what a call wrote can be read, and a file is not set aside. -/
theorem readable_step (hm : m.Lawful) {s : Store σ} (h : m.kind.Legible s) (e : Event κ) :
    m.Readable s e ∧ m.kind.Legible (m.step s e) := by
  cases e with
  | reopen =>
    obtain ⟨contents, hread⟩ := Option.isSome_iff_exists.mp h.read
    exact ⟨by simp [Service.Readable, Kind.opened, hread],
      (opened_holds hm.fresh s.file).legible⟩
  | call c =>
    rw [Service.Readable, Service.step]
    rcases call_cases hm c s with ⟨e, -, hcall⟩ | ⟨a, -, hcall⟩ | ⟨a, hplan, hsize, hwrite⟩
    · rw [hcall]
      exact ⟨.inl rfl, h⟩
    · rw [hcall]
      exact ⟨.inl rfl, h⟩
    · have hcheck := hm.replace c s.memory a h.check hplan
      have hread := read_encode hm hsize hcheck
      rcases hwrite with ⟨file, hwrite, hcall⟩ | ⟨e, file, hwrite, hcall⟩
      · rw [hcall, hm.written c _ _ file hwrite]
        exact ⟨.inr hread, hcheck, by simp [hread]⟩
      · rw [hcall]
        rcases hm.failed c _ _ e file hwrite with rfl | rfl
        · exact ⟨.inl rfl, h.check, h.read⟩
        · exact ⟨.inr hread, h.check, by simp [hread]⟩

theorem readable_run (hm : m.Lawful) {s : Store σ} (h : m.kind.Legible s) (es : List (Event κ)) :
    Along m.step m.Readable s es := by
  refine along_of_invariant (I := m.kind.Legible) (C := fun _ _ => True) ?_ ?_ h
    (along_of_forall (fun _ _ => trivial) s es)
  · exact fun s e hs _ => (readable_step hm hs e).2
  · exact fun s e hs _ => (readable_step hm hs e).1

end Foundation.Durable
