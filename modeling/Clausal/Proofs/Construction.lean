import Clausal.Formula
import Mathlib.Tactic.Lemma

/-!
# Formulas as their callers prepare them

Callers make clauses, add them to a formula, and put variables on its queue. The relation `Prepared`
holds of what they can arrive at without a clause being refused; a clause may be added several
times. Main statements: what is prepared is coherent (`Prepared.coherent`), that is, the register
has all negated occurrences and the queue names no variable twice, and on the queue are the
variables put there and those of the facts (`Prepared.mem_queue_iff`).
-/

namespace Clausal

/-- A clause is the fact of a variable exactly if the variable, not negated, is its only literal. -/
lemma Clause.fact?_eq_some_iff {c : Clause} {v : Variable} :
    c.fact? = some v ↔ c.literals = [⟨v, false⟩] := by
  unfold fact?
  split
  · next w h => simp [h]
  · next h =>
    constructor
    · intro e
      cases e
    · intro e
      exact absurd e (h v)

/-- The clause that signed integers write; zeros write no literal. -/
def Clause.ofInts (is : List Int) : Clause := ofList (is.filterMap Literal.ofInt?)

/-- The second arena continues the first one: it has the clauses of the first, which may have lost
literals, and may have others after them. -/
structure Arena.Continues (A A' : Arena) : Prop where
  size_le : A.slots.size ≤ A'.slots.size
  mem_of_mem : ∀ r < A.slots.size, ∀ l, l ∈ A'.get r → l ∈ A.get r

/-- An arena continues itself. -/
lemma Arena.Continues.refl (A : Arena) : A.Continues A where
  size_le := Nat.le_refl _
  mem_of_mem := fun _ _ _ hl => hl

/-- An arena with one more clause continues the one without it. -/
lemma Arena.Continues.alloc (A : Arena) (c : Clause) : A.Continues (A.alloc c).1 where
  size_le := by simp [Arena.alloc]
  mem_of_mem := by
    intro r hr l hl
    rwa [Arena.get_alloc_of_lt hr] at hl

namespace Formula

/-- Putting a variable on the queue does not change the number of variables. -/
@[simp]
lemma enqueue_numVariables (F : Formula) (v : Variable) :
    (F.enqueue v).numVariables = F.numVariables := by
  unfold enqueue
  split <;> rfl

/-- Putting a variable on the queue does not change which clauses a formula has. -/
@[simp]
lemma enqueue_refs (F : Formula) (v : Variable) : (F.enqueue v).refs = F.refs := by
  unfold enqueue
  split <;> rfl

/-- Putting a variable on the queue does not change the register. -/
@[simp]
lemma enqueue_register (F : Formula) (v : Variable) : (F.enqueue v).register = F.register := by
  unfold enqueue
  split <;> rfl

/-- The variable put on the queue is the only one that comes to it. -/
@[simp]
lemma mem_queue_enqueue {F : Formula} {v w : Variable} :
    w ∈ (F.enqueue v).queue ↔ w ∈ F.queue ∨ w = v := by
  unfold enqueue
  split
  · next h =>
    constructor
    · exact Or.inl
    · rintro (hw | rfl)
      · exact hw
      · exact h
  · simp

/-- A variable that is on the queue does not come to it again. -/
lemma nodup_queue_enqueue {F : Formula} {v : Variable} (h : F.queue.Nodup) :
    (F.enqueue v).queue.Nodup := by
  unfold enqueue
  split
  · exact h
  · next hv =>
    rw [List.nodup_append]
    refine ⟨h, by simp, ?_⟩
    intro a ha b hb
    rw [List.mem_singleton] at hb
    rintro rfl
    exact hv (hb ▸ ha)

/-- The entries of the register for a clause with the given literals. -/
def entries (r : ClauseRef) (ls : List Literal) : List (Variable × ClauseRef) :=
  (ls.filter (·.negated)).map fun l => (l.var, r)

/-- A clause has an entry for each variable that it negates, and no entry names another clause. -/
lemma mem_entries {r s : ClauseRef} {ls : List Literal} {v : Variable} :
    (v, s) ∈ entries r ls ↔ s = r ∧ (⟨v, true⟩ : Literal) ∈ ls := by
  simp only [entries, List.mem_map, List.mem_filter, Prod.mk.injEq]
  constructor
  · rintro ⟨⟨w, b⟩, ⟨hl, hb⟩, rfl, rfl⟩
    cases hb
    exact ⟨rfl, hl⟩
  · rintro ⟨rfl, hl⟩
    exact ⟨_, ⟨hl, rfl⟩, rfl, rfl⟩

/-- Registering comes to the end only if all literals are in range, and has then made the entries
of the clause. -/
lemma registerAll_eq_true {F F' : Formula} {r : ClauseRef} {ls : List Literal}
    (h : F.registerAll r ls = (F', true)) :
    (∀ l ∈ ls, l.var.index ≤ F.numVariables) ∧
      F' = { F with register := F.register ++ entries r ls } := by
  induction ls generalizing F with
  | nil =>
    cases h
    simp [entries]
  | cons l rest ih =>
    simp only [registerAll] at h
    split at h
    · cases h
    · next hle =>
      split at h
      · next hn =>
        obtain ⟨hrest, rfl⟩ := ih h
        refine ⟨List.forall_mem_cons.mpr ⟨Nat.not_lt.mp hle, hrest⟩, ?_⟩
        simp [entries, hn]
      · next hn =>
        obtain ⟨hrest, rfl⟩ := ih h
        refine ⟨List.forall_mem_cons.mpr ⟨Nat.not_lt.mp hle, hrest⟩, ?_⟩
        simp [entries, hn]

/-- What adding a clause does to a formula that does not refuse it. -/
structure Attached (A : Arena) (F : Formula) (r : ClauseRef) (F' : Formula) : Prop where
  index_le : ∀ l ∈ A.get r, l.var.index ≤ F.numVariables
  numVariables_eq : F'.numVariables = F.numVariables
  refs_eq : F'.refs = F.refs ++ [r]
  register_eq : F'.register = F.register ++ entries r (A.get r).literals
  mem_queue_iff : ∀ v, v ∈ F'.queue ↔ v ∈ F.queue ∨ (A.get r).fact? = some v
  nodup_queue : F.queue.Nodup → F'.queue.Nodup

/-- A clause that is not refused is added. -/
lemma attached_of_attach {A : Arena} {F F' : Formula} {r : ClauseRef}
    (h : F.attach A r = (F', .ok ())) : Attached A F r F' := by
  unfold attach at h
  split at h
  · cases h
  · next G hG =>
    obtain ⟨hle, rfl⟩ := registerAll_eq_true hG
    split at h
    · next v hv =>
      cases h
      exact {
        index_le := hle
        numVariables_eq := by simp
        refs_eq := by simp
        register_eq := by simp
        mem_queue_iff := by
          intro w
          simp [hv, eq_comm]
        nodup_queue := fun hq => nodup_queue_enqueue hq }
    · next hv =>
      cases h
      exact {
        index_le := hle
        numVariables_eq := rfl
        refs_eq := rfl
        register_eq := rfl
        mem_queue_iff := by simp [hv]
        nodup_queue := id }

end Formula

namespace Workspace

/-- A formula over `n` variables that its callers have prepared: they started with no clauses, made
clauses, added some of them without being refused, and put the listed variables on the queue. -/
inductive Prepared (n : Nat) : List Variable → Workspace → Prop where
  | start (A) :
    Prepared n [] ⟨A, Formula.empty n⟩
  | make {vs A F} (c) :
    Prepared n vs ⟨A, F⟩ →
    Prepared n vs ⟨(A.alloc c).1, F⟩
  | add {vs A F F' r} :
    Prepared n vs ⟨A, F⟩ →
    r < A.slots.size →
    F.attach A r = (F', .ok ()) →
    Prepared n vs ⟨A, F'⟩
  | push {vs A F v} :
    Prepared n vs ⟨A, F⟩ →
    v.index ≤ n →
    Prepared n (vs ++ [v]) ⟨A, F.enqueue v⟩

/-- A formula over `n` variables that was built by adding clauses only. -/
def Built (n : Nat) (W : Workspace) : Prop := Prepared n [] W

/-- The queue names no variable twice, the register fits the clauses, and the clauses keep to the
variables. -/
structure Indexed (n : Nat) (W : Workspace) : Prop where
  numVariables_eq : W.formula.numVariables = n
  ref_lt : ∀ r ∈ W.formula.refs, r < W.arena.slots.size
  index_le : ∀ r ∈ W.formula.refs, ∀ l ∈ W.arena.get r, l.var.index ≤ n
  nodup_queue : W.formula.queue.Nodup
  registered : ∀ r ∈ W.formula.refs, ∀ v, (⟨v, true⟩ : Literal) ∈ W.arena.get r →
    (v, r) ∈ W.formula.register
  ref_of_registered : ∀ v r, (v, r) ∈ W.formula.register → r ∈ W.formula.refs

/-- The queue and the register fit the clauses, and all variables are in range. -/
structure Coherent (n : Nat) (W : Workspace) : Prop extends Indexed n W where
  queue_index_le : ∀ v ∈ W.formula.queue, v.index ≤ n

/-- A formula without clauses is indexed. -/
lemma Indexed.start (n : Nat) (A : Arena) : Indexed n ⟨A, Formula.empty n⟩ where
  numVariables_eq := rfl
  ref_lt := by simp [Formula.empty]
  index_le := by simp [Formula.empty]
  nodup_queue := List.nodup_nil
  registered := by simp [Formula.empty]
  ref_of_registered := by simp [Formula.empty]

/-- A formula stays indexed when its clauses lose literals, others are made, and its queue is replaced
by another one without repetitions. -/
lemma Indexed.evolve {n : Nat} {W W' : Workspace} (h : W.Indexed n)
    (hA : W.arena.Continues W'.arena)
    (hn : W'.formula.numVariables = W.formula.numVariables)
    (hrefs : W'.formula.refs = W.formula.refs)
    (hregister : W'.formula.register = W.formula.register)
    (hq : W'.formula.queue.Nodup) : W'.Indexed n where
  numVariables_eq := hn.trans h.numVariables_eq
  ref_lt := by
    rw [hrefs]
    intro r hr
    exact Nat.lt_of_lt_of_le (h.ref_lt r hr) hA.size_le
  index_le := by
    rw [hrefs]
    intro r hr l hl
    exact h.index_le r hr l (hA.mem_of_mem r (h.ref_lt r hr) l hl)
  nodup_queue := hq
  registered := by
    rw [hrefs, hregister]
    intro r hr v hv
    exact h.registered r hr v (hA.mem_of_mem r (h.ref_lt r hr) _ hv)
  ref_of_registered := by
    rw [hrefs, hregister]
    exact h.ref_of_registered

/-- A formula stays indexed over any arena that continues its own. -/
lemma Indexed.continue {n : Nat} {A A' : Arena} {F : Formula} (h : Indexed n ⟨A, F⟩)
    (hA : A.Continues A') : Indexed n ⟨A', F⟩ :=
  h.evolve hA rfl rfl rfl h.nodup_queue

/-- A formula stays indexed when it gets another queue that names no variable twice. -/
lemma Indexed.requeue {n : Nat} {A : Arena} {F : Formula} {q : List Variable}
    (h : Indexed n ⟨A, F⟩) (hq : q.Nodup) : Indexed n ⟨A, { F with queue := q }⟩ :=
  h.evolve (.refl A) rfl rfl rfl hq

/-- A formula stays indexed when a clause is added, since the register gets its negated
occurrences. -/
lemma Indexed.add {n : Nat} {A : Arena} {F F' : Formula} {r : ClauseRef}
    (h : Indexed n ⟨A, F⟩) (hr : r < A.slots.size) (ha : Formula.Attached A F r F') :
    Indexed n ⟨A, F'⟩ where
  numVariables_eq := ha.numVariables_eq.trans h.numVariables_eq
  ref_lt := by
    intro s hs
    rw [ha.refs_eq, List.mem_append, List.mem_singleton] at hs
    rcases hs with hs | rfl
    · exact h.ref_lt s hs
    · exact hr
  index_le := by
    intro s hs l hl
    rw [ha.refs_eq, List.mem_append, List.mem_singleton] at hs
    rcases hs with hs | rfl
    · exact h.index_le s hs l hl
    · exact h.numVariables_eq ▸ ha.index_le l hl
  nodup_queue := ha.nodup_queue h.nodup_queue
  registered := by
    intro s hs v hv
    rw [ha.refs_eq, List.mem_append, List.mem_singleton] at hs
    rw [ha.register_eq, List.mem_append, Formula.mem_entries]
    rcases hs with hs | rfl
    · exact .inl (h.registered s hs v hv)
    · exact .inr ⟨rfl, hv⟩
  ref_of_registered := by
    intro v s hv
    rw [ha.register_eq, List.mem_append, Formula.mem_entries] at hv
    rw [ha.refs_eq, List.mem_append, List.mem_singleton]
    rcases hv with hv | ⟨rfl, -⟩
    · exact .inl (h.ref_of_registered v s hv)
    · exact .inr rfl

/-- A formula stays indexed when a variable is put on its queue, even one beyond `n`. -/
lemma Indexed.push {n : Nat} {A : Arena} {F : Formula} (h : Indexed n ⟨A, F⟩) (v : Variable) :
    Indexed n ⟨A, F.enqueue v⟩ :=
  h.evolve (.refl A) (by simp) (by simp) (by simp) (Formula.nodup_queue_enqueue h.nodup_queue)

/-- The clauses of a coherent formula keep to its variables. -/
lemma Coherent.inRange {n : Nat} {W : Workspace} (h : W.Coherent n) : W.toCnf.InRange := by
  intro c hc l hl
  obtain ⟨r, hr, rfl⟩ := List.mem_map.mp hc
  have hle := h.index_le r hr l hl
  rwa [← h.numVariables_eq] at hle

/-- A formula without clauses is coherent. -/
lemma Coherent.start (n : Nat) (A : Arena) : Coherent n ⟨A, Formula.empty n⟩ where
  toIndexed := .start n A
  queue_index_le := by simp [Formula.empty]

/-- A clause that is made but not added leaves a formula coherent. -/
lemma Coherent.make {n : Nat} {A : Arena} {F : Formula} (h : Coherent n ⟨A, F⟩) (c : Clause) :
    Coherent n ⟨(A.alloc c).1, F⟩ where
  toIndexed := h.toIndexed.continue (.alloc A c)
  queue_index_le := h.queue_index_le

/-- A formula stays coherent when a clause is added, which can only put one of its variables on the
queue. -/
lemma Coherent.add {n : Nat} {A : Arena} {F F' : Formula} {r : ClauseRef}
    (h : Coherent n ⟨A, F⟩) (hr : r < A.slots.size) (ha : Formula.Attached A F r F') :
    Coherent n ⟨A, F'⟩ where
  toIndexed := h.toIndexed.add hr ha
  queue_index_le := by
    intro v hv
    rcases (ha.mem_queue_iff v).mp hv with hv | hv
    · exact h.queue_index_le v hv
    · have hl : (⟨v, false⟩ : Literal) ∈ A.get r := by
        rw [← Clause.mem_literals, Clause.fact?_eq_some_iff.mp hv]
        exact List.mem_singleton.mpr rfl
      exact h.numVariables_eq ▸ ha.index_le _ hl

/-- A formula stays coherent when one of its variables is put on the queue. -/
lemma Coherent.push {n : Nat} {A : Arena} {F : Formula} {v : Variable} (h : Coherent n ⟨A, F⟩)
    (hv : v.index ≤ n) : Coherent n ⟨A, F.enqueue v⟩ where
  toIndexed := h.toIndexed.push v
  queue_index_le := by
    intro w hw
    rcases Formula.mem_queue_enqueue.mp hw with hw | rfl
    · exact h.queue_index_le w hw
    · exact hv

/-- What callers have prepared is coherent. -/
lemma Prepared.coherent {n : Nat} {vs : List Variable} {W : Workspace} (h : Prepared n vs W) :
    W.Coherent n := by
  induction h with
  | start A => exact .start n A
  | make c _ ih => exact ih.make c
  | add _ hr ha ih => exact ih.add hr (Formula.attached_of_attach ha)
  | push _ hv ih => exact ih.push hv

/-- On the queue are the variables that were put there and those of the facts. -/
lemma Prepared.mem_queue_iff {n : Nat} {vs : List Variable} {W : Workspace} (h : Prepared n vs W)
    {v : Variable} : v ∈ W.formula.queue ↔
      v ∈ vs ∨ ∃ r ∈ W.formula.refs, (W.arena.get r).fact? = some v := by
  induction h with
  | start A => simp [Formula.empty]
  | @make vs A F c h ih =>
    -- the new clause has a place of its own, so the clauses of the formula are what they were
    have hget : ∀ r ∈ F.refs, (A.alloc c).1.get r = A.get r := fun r hr =>
      Arena.get_alloc_of_lt (h.coherent.ref_lt r hr)
    rw [ih]
    constructor
    · rintro (hv | ⟨r, hr, hf⟩)
      · exact .inl hv
      · exact .inr ⟨r, hr, (hget r hr).symm ▸ hf⟩
    · rintro (hv | ⟨r, hr, hf⟩)
      · exact .inl hv
      · exact .inr ⟨r, hr, hget r hr ▸ hf⟩
  | @add vs A F F' r _ _ ha ih =>
    have ha := Formula.attached_of_attach ha
    rw [ha.mem_queue_iff, ih, ha.refs_eq]
    simp only [List.mem_append, List.mem_singleton]
    constructor
    · rintro ((hv | ⟨s, hs, hf⟩) | hf)
      · exact .inl hv
      · exact .inr ⟨s, .inl hs, hf⟩
      · exact .inr ⟨r, .inr rfl, hf⟩
    · rintro (hv | ⟨s, hs | rfl, hf⟩)
      · exact .inl (.inl hv)
      · exact .inl (.inr ⟨s, hs, hf⟩)
      · exact .inr hf
  | @push vs A F w _ _ ih =>
    rw [Formula.mem_queue_enqueue, ih]
    simp only [Formula.enqueue_refs, List.mem_append, List.mem_singleton]
    exact or_right_comm

/-- A new clause is added at the end of the arena. -/
lemma attach_of_add {W W' : Workspace} {c : Clause} {r : ClauseRef} (h : W.add c = (W', .ok r)) :
    W'.arena = (W.arena.alloc c).1 ∧
      W.formula.attach W'.arena W.arena.slots.size = (W'.formula, .ok ()) := by
  simp only [Workspace.add] at h
  cases hf : W.formula.attach (W.arena.alloc c).1 (W.arena.alloc c).2 with
  | mk F result =>
    rw [hf] at h
    cases result with
    | error e => cases h
    | ok u =>
      cases h
      exact ⟨rfl, hf⟩

/-- Adding a new clause that is not refused goes on with the preparation. -/
lemma Prepared.of_add {n : Nat} {vs : List Variable} {W W' : Workspace} {c : Clause}
    {r : ClauseRef} (h : Prepared n vs W) (ha : W.add c = (W', .ok r)) : Prepared n vs W' := by
  obtain ⟨hA, hF⟩ := attach_of_add ha
  have hlt : W.arena.slots.size < W'.arena.slots.size := by
    simp [hA, Arena.alloc]
  exact (hA ▸ h.make c).add hlt hF

/-- Adding new clauses that are not refused goes on with the preparation. -/
lemma Prepared.of_addAll {n : Nat} {vs : List Variable} {W W' : Workspace} {cs : List Clause}
    (h : Prepared n vs W) (ha : W.addAll cs = .ok W') : Prepared n vs W' := by
  induction cs generalizing W with
  | nil =>
    cases ha
    exact h
  | cons c rest ih =>
    simp only [addAll] at ha
    split at ha
    · next W₁ r h₁ => exact ih (h.of_add h₁) ha
    · cases ha

/-- A formula made of a list of clauses is built by adding clauses. -/
lemma built_of_ofClauses {n : Int} {cs : List Clause} {W : Workspace}
    (h : ofClauses n cs = .ok W) : W.Built n.toNat := by
  by_cases hn : n < 0
  · simp [ofClauses, Formula.ofSize, hn, bind, Except.bind] at h
  · simp only [ofClauses, Formula.ofSize, hn, ↓reduceIte, bind, Except.bind] at h
    exact (Prepared.start Arena.empty).of_addAll h

end Workspace

end Clausal
