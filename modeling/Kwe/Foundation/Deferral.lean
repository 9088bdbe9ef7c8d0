import Mathlib

/-!
Operations on named cells, and what it takes to leave some of them for last.

An operation reads some cells and writes one.  What it computes is open: a
meaning gives each label a function of the contents read.

* `exec_deferred`: putting the late operations last changes nothing where each
  of them is undisturbed by the early ones behind it;
* `deferrable_of_forall`: the condition is necessary where the labels are
  distinct and each late operation also reads the cell that it writes;
* `exec_deferred_iff`: both together.
-/

namespace Foundation.Deferral

variable {κ ν α : Type*} [DecidableEq ν]

structure Op (κ ν : Type*) where
  label : κ
  reads : List ν
  target : ν
  deriving DecidableEq, Repr

/-- A function of the contents read, for each label. -/
abbrev Meaning (κ α : Type*) := κ → List α → α

def Op.exec (f : Meaning κ α) (s : ν → α) (op : Op κ ν) : ν → α :=
  Function.update s op.target (f op.label (op.reads.map s))

/-- Executes operations in their order. -/
def exec (f : Meaning κ α) (s : ν → α) (ops : List (Op κ ν)) : ν → α := ops.foldl (Op.exec f) s

@[simp] theorem exec_nil (f : Meaning κ α) (s : ν → α) : exec f s ([] : List (Op κ ν)) = s := rfl

@[simp] theorem exec_cons (f : Meaning κ α) (s : ν → α) (op : Op κ ν) (ops : List (Op κ ν)) :
    exec f s (op :: ops) = exec f (op.exec f s) ops := rfl

theorem exec_append (f : Meaning κ α) (s : ν → α) (ops later : List (Op κ ν)) :
    exec f s (ops ++ later) = exec f (exec f s ops) later := List.foldl_append

theorem exec_of_not_target (f : Meaning κ α) (s : ν → α) {ops : List (Op κ ν)} {x : ν}
    (h : ∀ op ∈ ops, op.target ≠ x) : exec f s ops x = s x := by
  induction ops generalizing s with
  | nil => rfl
  | cons op ops ih =>
    obtain ⟨hop, hops⟩ := List.forall_mem_cons.mp h
    rw [exec_cons, ih _ hops]
    exact Function.update_of_ne (Ne.symm hop) _ _

/-- Operations that all compute one value leave it in every cell they write. -/
theorem exec_const {f : Meaning κ α} {v : α} {ops : List (Op κ ν)} (s : ν → α)
    (hf : ∀ op ∈ ops, ∀ vs, f op.label vs = v) {x : ν} (hx : ∃ op ∈ ops, op.target = x) :
    exec f s ops x = v := by
  induction ops generalizing s with
  | nil => obtain ⟨_, hmem, -⟩ := hx; cases hmem
  | cons op ops ih =>
    obtain ⟨hop, hops⟩ := List.forall_mem_cons.mp hf
    by_cases hlater : ∃ op ∈ ops, op.target = x
    · exact ih _ hops hlater
    · have hnone : ∀ op ∈ ops, op.target ≠ x := fun other hother heq => hlater ⟨other, hother, heq⟩
      obtain ⟨first, hfirst, rfl⟩ := hx
      rcases List.mem_cons.mp hfirst with rfl | hmem
      · rw [exec_cons, exec_of_not_target _ _ hnone]
        exact (Function.update_self ..).trans (hop _)
      · exact absurd rfl (hnone first hmem)

/-- Meanings that agree on the labels of the operations execute them alike. -/
theorem exec_congr {f g : Meaning κ α} {ops : List (Op κ ν)} (s : ν → α)
    (h : ∀ op ∈ ops, f op.label = g op.label) : exec f s ops = exec g s ops := by
  induction ops generalizing s with
  | nil => rfl
  | cons op ops ih =>
    obtain ⟨hop, hops⟩ := List.forall_mem_cons.mp h
    rw [exec_cons, exec_cons, ih _ hops]
    unfold Op.exec
    rw [hop]

/-! ## What the content of a cell reaches -/

/-- A cell is marked when some content it is computed from is. -/
def anyMarked : Meaning κ Bool := fun _ marks => marks.any id

/-- The cells whose contents the content of `cell` reaches. -/
def spread (cell : ν) (ops : List (Op κ ν)) : ν → Bool :=
  exec anyMarked (fun x => decide (x = cell)) ops

/-- Contents that agree where nothing is marked still agree there afterwards. -/
theorem exec_eq_of_unmarked (f : Meaning κ α) {marks : ν → Bool} {s t : ν → α}
    {ops : List (Op κ ν)} (h : ∀ x, marks x = false → s x = t x) :
    ∀ x, exec anyMarked marks ops x = false → exec f s ops x = exec f t ops x := by
  induction ops generalizing marks s t with
  | nil => exact h
  | cons op ops ih =>
    refine ih fun x hx => ?_
    unfold Op.exec at hx ⊢
    by_cases htarget : x = op.target
    · subst htarget
      rw [Function.update_self] at hx
      rw [Function.update_self, Function.update_self]
      congr 1
      refine List.map_congr_left fun y hy => h y ?_
      have hall := List.any_eq_false.mp hx (marks y) (List.mem_map_of_mem hy)
      simpa using hall
    · rw [Function.update_of_ne htarget] at hx
      rw [Function.update_of_ne htarget, Function.update_of_ne htarget]
      exact h x hx

theorem exec_unmarked (ops : List (Op κ ν)) (x : ν) :
    exec anyMarked (fun _ => false) ops x = false := by
  induction ops with
  | nil => rfl
  | cons op ops ih =>
    have hop : op.exec anyMarked (fun _ => false) = fun _ => false := by
      funext y
      by_cases hy : y = op.target
      · subst hy
        exact (Function.update_self ..).trans (List.any_eq_false.mpr (by simp))
      · exact Function.update_of_ne hy _ _
    rw [exec_cons, hop]
    exact ih

/-! ## Operations left for last -/

/-- The operations leave alone what `op` reads and writes, and nothing that they
write depends on what `op` wrote. -/
def Undisturbed (op : Op κ ν) (ops : List (Op κ ν)) : Prop :=
  ∀ other ∈ ops, other.target ≠ op.target ∧ other.target ∉ op.reads ∧
    spread op.target ops other.target = false

instance (op : Op κ ν) (ops : List (Op κ ν)) : Decidable (Undisturbed op ops) :=
  inferInstanceAs (Decidable (∀ other ∈ ops, _))

theorem Undisturbed.exec_comm {op : Op κ ν} {ops : List (Op κ ν)} (h : Undisturbed op ops)
    (f : Meaning κ α) (s : ν → α) :
    exec f (op.exec f s) ops = op.exec f (exec f s ops) := by
  funext x
  by_cases hx : x = op.target
  · subst hx
    rw [exec_of_not_target _ _ fun other hother => (h other hother).1]
    unfold Op.exec
    rw [Function.update_self, Function.update_self]
    congr 1
    refine List.map_congr_left fun y hy => (exec_of_not_target _ _ fun other hother heq => ?_).symm
    exact (h other hother).2.1 (heq ▸ hy)
  · have hunmarked : spread op.target ops x = false := by
      by_cases hwritten : ∃ other ∈ ops, other.target = x
      · obtain ⟨other, hother, rfl⟩ := hwritten
        exact (h other hother).2.2
      · refine (exec_of_not_target _ _ fun other hother heq => hwritten ⟨other, hother, heq⟩).trans ?_
        exact decide_eq_false hx
    have hsame : ∀ y, decide (y = op.target) = false → op.exec f s y = s y := fun y hy =>
      Function.update_of_ne (of_decide_eq_false hy) _ _
    rw [exec_eq_of_unmarked f hsame x hunmarked]
    exact (Function.update_of_ne hx _ _).symm

section Deferred

variable (late : κ → Bool)

def early (ops : List (Op κ ν)) : List (Op κ ν) := ops.filter fun op => !late op.label

/-- The late operations after all the others. -/
def deferred (ops : List (Op κ ν)) : List (Op κ ν) :=
  early late ops ++ ops.filter fun op => late op.label

/-- Each late operation is undisturbed by the early ones behind it. -/
def Deferrable : List (Op κ ν) → Prop
  | [] => True
  | op :: ops => (late op.label = true → Undisturbed op (early late ops)) ∧ Deferrable ops

instance Deferrable.decidable : ∀ ops : List (Op κ ν), Decidable (Deferrable late ops)
  | [] => inferInstanceAs (Decidable True)
  | op :: ops =>
    have := Deferrable.decidable ops
    inferInstanceAs (Decidable ((late op.label = true → Undisturbed op (early late ops)) ∧ _))

variable {late}

theorem exec_deferred_late {op : Op κ ν} (hop : late op.label = true) (f : Meaning κ α)
    (s : ν → α) (ops : List (Op κ ν)) :
    exec f s (deferred late (op :: ops)) =
      exec f (op.exec f (exec f s (early late ops))) (ops.filter fun op => late op.label) := by
  unfold deferred early
  rw [List.filter_cons_of_neg (by simp [hop]), List.filter_cons_of_pos (by simpa using hop),
    exec_append, exec_cons]

theorem exec_deferred_early {op : Op κ ν} (hop : late op.label = false) (f : Meaning κ α)
    (s : ν → α) (ops : List (Op κ ν)) :
    exec f s (deferred late (op :: ops)) = exec f (op.exec f s) (deferred late ops) := by
  unfold deferred early
  rw [List.filter_cons_of_pos (by simp [hop]), List.filter_cons_of_neg (by simp [hop])]
  rfl

/-- **Deferral.** Putting the late operations last changes nothing. -/
theorem exec_deferred {ops : List (Op κ ν)} (h : Deferrable late ops) (f : Meaning κ α)
    (s : ν → α) : exec f s (deferred late ops) = exec f s ops := by
  induction ops generalizing s with
  | nil => rfl
  | cons op ops ih =>
    cases hop : late op.label with
    | false => rw [exec_deferred_early hop, ih h.2, exec_cons]
    | true =>
      rw [exec_deferred_late hop, ← (h.1 hop).exec_comm, ← exec_append, exec_cons, ← ih h.2]
      rfl

/-! ## The condition is necessary -/

/-- What an operation and those behind it do when their order does not matter
says that it is undisturbed. -/
theorem undisturbed_of_comm {op : Op κ ν} {ops : List (Op κ ν)} [DecidableEq κ]
    (hlabel : ∀ other ∈ ops, other.label ≠ op.label)
    (h : ∀ (f : Meaning κ Bool) s, exec f (op.exec f s) ops = op.exec f (exec f s ops)) :
    Undisturbed op ops := by
  have htarget : ∀ other ∈ ops, other.target ≠ op.target := by
    intro other hother heq
    have hcomm := congrFun (h (fun label _ => decide (label = op.label)) fun _ => false) op.target
    rw [exec_const _ (fun o ho _ => decide_eq_false (hlabel o ho)) ⟨other, hother, heq⟩] at hcomm
    simp [Op.exec] at hcomm
  refine fun other hother => ⟨htarget other hother, fun hread => ?_, ?_⟩
  · -- the early ones write `true`, and `op` tells whether it reads one
    have hcomm := congrFun (h (fun label vs => decide (label ≠ op.label) || vs.any id)
      fun _ => false) op.target
    rw [exec_of_not_target _ _ htarget] at hcomm
    have hwritten := exec_const (f := fun label vs => decide (label ≠ op.label) || vs.any id)
      (v := true) (fun _ => false) (fun o ho vs => by simp [hlabel o ho]) ⟨other, hother, rfl⟩
    simp only [Op.exec, Function.update_self, ne_eq, not_true_eq_false, decide_false,
      Bool.false_or] at hcomm
    have hread' : (op.reads.map (exec (fun label vs => decide (label ≠ op.label) || vs.any id)
        (fun _ => false) ops)).any id = true :=
      List.any_eq_true.mpr ⟨true, List.mem_map.mpr ⟨other.target, hread, hwritten⟩, rfl⟩
    rw [hread'] at hcomm
    simp at hcomm
  · -- `op` marks its cell, and the early ones pass marks on
    have hcomm := congrFun (h (fun label vs => decide (label = op.label) || vs.any id)
      fun _ => false) other.target
    have hsame : ∀ s : ν → Bool,
        exec (fun label vs => decide (label = op.label) || vs.any id) s ops =
          exec anyMarked s ops := fun s => exec_congr s fun o ho => by
      funext vs
      simp [anyMarked, hlabel o ho]
    rw [hsame, hsame] at hcomm
    unfold Op.exec at hcomm
    rw [Function.update_of_ne (htarget other hother), exec_unmarked] at hcomm
    refine Eq.trans ?_ hcomm
    unfold spread
    congr 1
    funext x
    by_cases hx : x = op.target
    · subst hx
      simp
    · rw [Function.update_of_ne hx]
      exact decide_eq_false hx

/-- The meaning under which some operations leave everything as it is: those that
read the cell that they write last. -/
def keeping (kept : κ → Bool) (f : Meaning κ α) (v : α) : Meaning κ α := fun label vs =>
  if kept label then vs.getLast?.getD v else f label vs

theorem exec_keeping {kept : κ → Bool} {f : Meaning κ α} {v : α} {ops : List (Op κ ν)}
    (hlast : ∀ op ∈ ops, op.reads.getLast? = some op.target) (hkept : ∀ op ∈ ops, kept op.label)
    (s : ν → α) : exec (keeping kept f v) s ops = s := by
  induction ops with
  | nil => rfl
  | cons op ops ih =>
    obtain ⟨hop, hops⟩ := List.forall_mem_cons.mp hlast
    obtain ⟨hkeptOp, hkepts⟩ := List.forall_mem_cons.mp hkept
    have hsame : op.exec (keeping kept f v) s = s := by
      unfold Op.exec keeping
      rw [if_pos hkeptOp, List.getLast?_map, hop]
      exact Function.update_eq_self _ _
    rw [exec_cons, hsame]
    exact ih hops hkepts

theorem exec_keeping_of_not {kept : κ → Bool} {f : Meaning κ α} {v : α} {ops : List (Op κ ν)}
    (hkept : ∀ op ∈ ops, kept op.label = false) (s : ν → α) :
    exec (keeping kept f v) s ops = exec f s ops :=
  exec_congr s fun op hop => by
    funext vs
    exact if_neg (by simp [hkept op hop])

/-- Behind the first operation the order does not matter either: a meaning can
make the first one do nothing. -/
theorem exec_deferred_tail [DecidableEq κ] {op : Op κ ν} {ops : List (Op κ ν)}
    (hfresh : ∀ other ∈ ops, other.label ≠ op.label)
    (hlast : late op.label = true → op.reads.getLast? = some op.target)
    (h : ∀ (f : Meaning κ α) s, exec f s (deferred late (op :: ops)) = exec f s (op :: ops))
    (f : Meaning κ α) (s : ν → α) : exec f s (deferred late ops) = exec f s ops := by
  have hops : ∀ (g : List α → α) (t : ν → α) (rest : List (Op κ ν)), (∀ o ∈ rest, o ∈ ops) →
      exec (Function.update f op.label g) t rest = exec f t rest := fun g t rest hrest =>
    exec_congr t fun o ho => Function.update_of_ne (hfresh o (hrest o ho)) _ _
  have hdeferred : ∀ o ∈ deferred late ops, o ∈ ops := fun o ho => by
    rcases List.mem_append.mp ho with ho | ho <;> exact List.mem_of_mem_filter ho
  cases hop : late op.label with
  | false =>
    have hnothing : op.exec (Function.update f op.label fun _ => s op.target) s = s := by
      unfold Op.exec
      rw [Function.update_self]
      exact Function.update_eq_self _ _
    have hsame := h (Function.update f op.label fun _ => s op.target) s
    rw [exec_deferred_early hop, exec_cons, hnothing, hops _ _ _ hdeferred,
      hops _ _ _ fun _ ho => ho] at hsame
    exact hsame
  | true =>
    have hnothing : ∀ t : ν → α,
        op.exec (Function.update f op.label fun vs => vs.getLast?.getD (s op.target)) t = t := by
      intro t
      unfold Op.exec
      rw [Function.update_self, List.getLast?_map, hlast hop]
      exact Function.update_eq_self _ _
    have hsame := h (Function.update f op.label fun vs => vs.getLast?.getD (s op.target)) s
    rw [exec_deferred_late hop, exec_cons, hnothing, hnothing, ← exec_append,
      hops _ _ _ fun _ ho => ho] at hsame
    exact (hops _ _ _ hdeferred).symm.trans hsame

/-- Late operations that can be put last for every meaning are undisturbed. -/
theorem deferrable_of_forall [DecidableEq κ] {ops : List (Op κ ν)}
    (hlabels : (ops.map Op.label).Nodup)
    (hlast : ∀ op ∈ ops, late op.label = true → op.reads.getLast? = some op.target)
    (h : ∀ (f : Meaning κ Bool) s, exec f s (deferred late ops) = exec f s ops) :
    Deferrable late ops := by
  induction ops with
  | nil => trivial
  | cons op ops ih =>
    obtain ⟨hfresh, hlabels⟩ := List.nodup_cons.mp hlabels
    obtain ⟨hop, hops⟩ := List.forall_mem_cons.mp hlast
    have hne : ∀ other ∈ ops, other.label ≠ op.label := fun other hother heq =>
      hfresh (List.mem_map.mpr ⟨other, hother, heq⟩)
    have htail := exec_deferred_tail hne hop h
    refine ⟨fun hlate => ?_, ih hlabels hops htail⟩
    refine undisturbed_of_comm (fun other hother => hne other (List.mem_of_mem_filter hother))
      fun f s => ?_
    -- the other late operations are made to do nothing
    have hearly : ∀ t : ν → Bool,
        exec (keeping (fun label => late label && decide (label ≠ op.label)) f false) t
          (early late ops) = exec f t (early late ops) :=
      exec_keeping_of_not fun o ho => by
        have hno : late o.label = false := by simpa using (List.mem_filter.mp ho).2
        simp [hno]
    have hlates : ∀ t : ν → Bool,
        exec (keeping (fun label => late label && decide (label ≠ op.label)) f false) t
          (ops.filter fun op => late op.label) = t :=
      exec_keeping (fun o ho => hops o (List.mem_filter.mp ho).1 (List.mem_filter.mp ho).2)
        fun o ho => by simp [(List.mem_filter.mp ho).2, hne o (List.mem_filter.mp ho).1]
    have hself : ∀ t : ν → Bool,
        op.exec (keeping (fun label => late label && decide (label ≠ op.label)) f false) t =
          op.exec f t := by
      intro t
      simp [Op.exec, keeping]
    have hsame := h (keeping (fun label => late label && decide (label ≠ op.label)) f false) s
    rw [exec_deferred_late hlate, exec_cons, ← htail, deferred, exec_append, hlates, hlates,
      hearly, hearly, hself, hself] at hsame
    exact hsame.symm

/-- **The exact condition.** -/
theorem exec_deferred_iff [DecidableEq κ] {ops : List (Op κ ν)} (hlabels : (ops.map Op.label).Nodup)
    (hlast : ∀ op ∈ ops, late op.label = true → op.reads.getLast? = some op.target) :
    (∀ (α : Type) (f : Meaning κ α) s, exec f s (deferred late ops) = exec f s ops) ↔
      Deferrable late ops :=
  ⟨fun h => deferrable_of_forall hlabels hlast (h Bool), fun h _ f s => exec_deferred h f s⟩

end Deferred

end Foundation.Deferral
