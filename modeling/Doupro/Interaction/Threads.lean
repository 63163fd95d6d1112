import Doupro.Interaction.Contracts
import Mathlib.Logic.Function.Basic

/-!
# Interleaved programs

Several programs share a world. A run of the pool lets one of them make its next call at
a time; what a single program did in it is a run of that program among strangers.
-/

namespace Doupro.Interaction

variable {S : Signature} {W α ι : Type} [DecidableEq ι]

/-- The calls one member of a pool made, in order. -/
def memberTrace (i : ι) (history : List (ι × Event S W)) : Trace S W :=
  history.filterMap fun (j, e) => if j = i then some e else none

@[simp] theorem memberTrace_cons_self (i : ι) (e : Event S W) (history : List (ι × Event S W)) :
    memberTrace i ((i, e) :: history) = e :: memberTrace i history := by
  simp [memberTrace]

@[simp] theorem memberTrace_cons_ne {i j : ι} (h : i ≠ j) (e : Event S W)
    (history : List (ι × Event S W)) :
    memberTrace j ((i, e) :: history) = memberTrace j history := by
  simp [memberTrace, h]

theorem memberTrace_append (i : ι) (first rest : List (ι × Event S W)) :
    memberTrace i (first ++ rest) = memberTrace i first ++ memberTrace i rest :=
  List.filterMap_append ..

/-- What one member did is part of the history. -/
theorem mem_of_memberTrace {i : ι} {e : Event S W} {history : List (ι × Event S W)}
    (h : e ∈ memberTrace i history) : (i, e) ∈ history := by
  obtain ⟨⟨j, e'⟩, hmem, hsome⟩ := List.mem_filterMap.mp h
  by_cases hij : j = i
  · simp only [if_pos hij, Option.some.injEq] at hsome
    rwa [← hij, ← hsome]
  · simp [hij] at hsome

theorem memberTrace_grows (i : ι) (past later : List (ι × Event S W)) :
    (memberTrace i past).Sublist (memberTrace i (past ++ later)) := by
  rw [memberTrace_append]
  exact List.sublist_append_left _ _

/-- What each member has learned from its own calls of a history. -/
def Contract.learnedBy {κ : Type} (C : Contract S W κ) (k : κ) (history : List (ι × Event S W))
    (i : ι) : κ := C.learned k (memberTrace i history)

theorem Contract.learnedBy_concat {κ : Type} (C : Contract S W κ) (k : κ)
    (past : List (ι × Event S W)) (i : ι) (e : Event S W) :
    C.learnedBy k (past ++ [(i, e)]) =
      Function.update (C.learnedBy k past) i (C.next (C.learnedBy k past i) e) := by
  funext j
  unfold learnedBy
  rw [memberTrace_append]
  by_cases hj : j = i
  · subst hj
    rw [Function.update_self, memberTrace_cons_self, learned, List.foldl_append]
    rfl
  · rw [Function.update_of_ne hj, memberTrace_cons_ne (Ne.symm hj)]
    simp [memberTrace]

namespace Machine

inductive PoolRuns (M : Machine S W) :
    (ι → Program S α) → W → List (ι × Event S W) → (ι → Program S α) → W → Prop
  | refl (pool : ι → Program S α) (w : W) : PoolRuns M pool w [] pool w
  | call {pool pool' : ι → Program S α} {w w₀ w₁ w' : W} {history : List (ι × Event S W)} (i : ι)
    {op : S.Op} {next : S.Reply op → Program S α} {r : S.Reply op} (hi : pool i = .call op next)
    (hrely : M.rely w w₀) (hstep : M.step w₀ op r w₁)
    (hrest : PoolRuns M (Function.update pool i (next r)) w₁ history pool' w') :
    PoolRuns M pool w ((i, ⟨w₀, op, r⟩) :: history) pool' w'

/-- What a member did in a run of the pool is something its program can do. -/
theorem PoolRuns.admits {M : Machine S W} {pool pool' : ι → Program S α} {w w' : W}
    {history : List (ι × Event S W)} (h : M.PoolRuns pool w history pool' w') (j : ι) :
    M.Admits (pool j) (memberTrace j history) := by
  induction h with
  | refl pool w => cases pool j <;> trivial
  | @call pool pool' w w₀ w₁ w' history i op next r hi hrely hstep hrest ih =>
    by_cases hij : i = j
    · subst hij
      rw [hi, memberTrace_cons_self]
      exact ⟨r, w₁, rfl, hstep, by simpa using ih⟩
    · rw [memberTrace_cons_ne hij]
      simpa [Function.update_of_ne (Ne.symm hij)] using ih

/-- The run before an entry of a history, and the call the entry is. -/
theorem PoolRuns.split {M : Machine S W} {pool pool' : ι → Program S α} {w w' : W}
    {before after : List (ι × Event S W)} {i : ι} {e : Event S W}
    (h : M.PoolRuns pool w (before ++ (i, e) :: after) pool' w') :
    ∃ mid w₁ next, M.PoolRuns pool w before mid w₁ ∧ mid i = .call e.op next ∧
      M.rely w₁ e.world := by
  induction before generalizing pool w with
  | nil =>
    obtain - | ⟨_, hi, hrely, hstep, hrest⟩ := h
    exact ⟨pool, w, _, .refl pool w, hi, hrely⟩
  | cons first before ih =>
    obtain - | ⟨j, hj, hrely, hstep, hrest⟩ := h
    obtain ⟨mid, w₁, next, hbefore, hmid, hlast⟩ := ih hrest
    exact ⟨mid, w₁, next, .call j hj hrely hstep hbefore, hmid, hlast⟩

/-- Every entry of a history meets a condition on what happened before it. -/
def Throughout {ε : Type} (ok : List ε → ε → Prop) (past : List ε) : List ε → Prop
  | [] => True
  | entry :: rest => ok past entry ∧ Throughout ok (past ++ [entry]) rest

instance {ε : Type} {ok : List ε → ε → Prop} [∀ past entry, Decidable (ok past entry)] :
    (past history : List ε) → Decidable (Throughout ok past history)
  | _, [] => inferInstanceAs (Decidable True)
  | past, entry :: rest =>
    have : Decidable (Throughout ok (past ++ [entry]) rest) := instDecidableThroughout _ rest
    inferInstanceAs (Decidable (_ ∧ _))

theorem throughout_trivial {ε : Type} (past history : List ε) :
    Throughout (fun _ _ => True) past history := by
  induction history generalizing past with
  | nil => trivial
  | cons entry rest ih => exact ⟨trivial, ih _⟩

/-- Assume and guarantee. Each member obeys a contract; a fact about the world, what every
member has learned and the history that makes replies as expected, and that every allowed
call keeps, is an invariant of the pool. -/
theorem PoolRuns.contracts {M : Machine S W} {κ : Type} {C : ι → Contract S W κ}
    {Q : ι → κ → α → Prop} {A : List (ι × Event S W) → ι × Event S W → Prop}
    {J : W → (ι → κ) → List (ι × Event S W) → Prop}
    (hstep : ∀ {w w₀ w₁ k past} (i : ι) {op : S.Op} {r : S.Reply op}, J w k past → M.rely w w₀ →
      M.step w₀ op r w₁ → A past (i, ⟨w₀, op, r⟩) → (C i).allowed (k i) op →
      (C i).expects (k i) ⟨w₀, op, r⟩ ∧
        J w₁ (Function.update k i ((C i).next (k i) ⟨w₀, op, r⟩)) (past ++ [(i, ⟨w₀, op, r⟩)]))
    {pool pool' : ι → Program S α} {w w' : W} {history past : List (ι × Event S W)} {k : ι → κ}
    (h : M.PoolRuns pool w history pool' w') (hok : Throughout A past history)
    (hobeys : ∀ i, M.obeys (C i) (pool i) (k i) (Q i)) (hJ : J w k past) :
    ∃ k', J w' k' (past ++ history) ∧ ∀ i, M.obeys (C i) (pool' i) (k' i) (Q i) := by
  induction h generalizing past k with
  | refl pool w => exact ⟨k, by simpa using hJ, hobeys⟩
  | @call pool pool' w w₀ w₁ w' history i op next r hi hrely hcall hrest ih =>
    obtain ⟨hfirst, hlater⟩ := hok
    have hmember := hobeys i
    rw [hi] at hmember
    obtain ⟨hexpects, hnext⟩ := hstep i hJ hrely hcall hfirst hmember.1
    have hpool : ∀ j, M.obeys (C j) (Function.update pool i (next r) j)
        (Function.update k i ((C i).next (k i) ⟨w₀, op, r⟩) j) (Q j) := by
      intro j
      by_cases hij : j = i
      · subst hij
        simpa using hmember.2 _ _ _ hcall hexpects
      · simpa [Function.update_of_ne hij] using hobeys j
    obtain ⟨k', hJ', hobeys'⟩ := ih hlater hpool hnext
    exact ⟨k', by simpa [List.append_assoc] using hJ', hobeys'⟩

/-- An invariant of the world and the history of a pool whose members call what their own past
allows; and what each member may still do. -/
theorem PoolRuns.informed_members {M : Machine S W} {allowed : Trace S W → S.Op → Prop}
    {A : List (ι × Event S W) → ι × Event S W → Prop} {J : W → List (ι × Event S W) → Prop}
    {Q : ι → Trace S W → α → Prop}
    (hstep : ∀ {w w₀ w₁ past} (i : ι) {op : S.Op} {r : S.Reply op}, J w past → M.rely w w₀ →
      M.step w₀ op r w₁ → A past (i, ⟨w₀, op, r⟩) → allowed (memberTrace i past) op →
      J w₁ (past ++ [(i, ⟨w₀, op, r⟩)]))
    {pool pool' : ι → Program S α} {w w' : W} {history : List (ι × Event S W)}
    (h : M.PoolRuns pool w history pool' w') (hok : Throughout A [] history)
    (hobeys : ∀ i, M.obeys (Contract.ofHistory allowed) (pool i) [] (Q i)) (hJ : J w []) :
    J w' history ∧
      ∀ i, M.obeys (Contract.ofHistory allowed) (pool' i) (memberTrace i history) (Q i) := by
  obtain ⟨k, ⟨hk, hJ'⟩, hleft⟩ := PoolRuns.contracts (C := fun _ => Contract.ofHistory allowed)
    (Q := Q) (A := A)
    (J := fun w k past => (∀ i, k i = memberTrace i past) ∧ J w past) (k := fun _ => [])
    (fun {w w₀ w₁ k past} i op r hinv hrely hcall hA hallowed => by
      obtain ⟨hk, hinv⟩ := hinv
      refine ⟨trivial, fun j => ?_, hstep i hinv hrely hcall hA (hk i ▸ hallowed)⟩
      rw [memberTrace_append]
      by_cases hij : j = i
      · subst hij
        rw [Function.update_self, hk, memberTrace_cons_self]
        rfl
      · rw [Function.update_of_ne hij, hk, memberTrace_cons_ne (Ne.symm hij)]
        exact (List.append_nil _).symm)
    h hok hobeys ⟨fun _ => rfl, hJ⟩
  exact ⟨hJ', fun i => hk i ▸ hleft i⟩

theorem PoolRuns.informed {M : Machine S W} {allowed : Trace S W → S.Op → Prop}
    {A : List (ι × Event S W) → ι × Event S W → Prop} {J : W → List (ι × Event S W) → Prop}
    (hstep : ∀ {w w₀ w₁ past} (i : ι) {op : S.Op} {r : S.Reply op}, J w past → M.rely w w₀ →
      M.step w₀ op r w₁ → A past (i, ⟨w₀, op, r⟩) → allowed (memberTrace i past) op →
      J w₁ (past ++ [(i, ⟨w₀, op, r⟩)]))
    {pool pool' : ι → Program S α} {w w' : W} {history : List (ι × Event S W)}
    (h : M.PoolRuns pool w history pool' w') (hok : Throughout A [] history)
    (hobeys : ∀ i, M.obeys (Contract.ofHistory allowed) (pool i) [] fun _ _ => True) (hJ : J w []) :
    J w' history :=
  (h.informed_members hstep hok hobeys hJ).1

/-- What a history meets throughout, each of its entries meets. -/
theorem throughout_mem {ε : Type} {ok : List ε → ε → Prop} {past history : List ε}
    (h : Throughout ok past history) : ∀ entry ∈ history, ∃ before, ok before entry := by
  induction history generalizing past with
  | nil => simp
  | cons first rest ih => exact List.forall_mem_cons.mpr ⟨⟨past, h.1⟩, ih h.2⟩

/-! ### Scripted runs -/

/-- What a pool does when a computed machine is given the order of the members and the
world's share of each call. -/
def replay {χ : Type} (exec : W → χ → (op : S.Op) → S.Reply op × W) :
    List (ι × χ) → (ι → Program S α) → W → List (ι × Event S W) × (ι → Program S α) × W
  | [], pool, w => ([], pool, w)
  | (i, choice) :: rest, pool, w => match pool i with
    | .ret _ => replay exec rest pool w
    | .call op next =>
      let out := exec w choice op
      let played := replay exec rest (Function.update pool i (next out.1)) out.2
      ((i, ⟨w, op, out.1⟩) :: played.1, played.2)

theorem replay_append {χ : Type} (exec : W → χ → (op : S.Op) → S.Reply op × W)
    (first rest : List (ι × χ)) (pool : ι → Program S α) (w : W) :
    replay exec (first ++ rest) pool w =
      let start := replay exec first pool w
      let last := replay exec rest start.2.1 start.2.2
      (start.1 ++ last.1, last.2) := by
  induction first generalizing pool w with
  | nil => rfl
  | cons turn first ih =>
    obtain ⟨i, choice⟩ := turn
    simp only [List.cons_append, replay]
    cases pool i with
    | ret a => exact ih pool w
    | call op next => simp only [ih, List.cons_append]

theorem replay_runs {M : Machine S W} {χ : Type} {exec : W → χ → (op : S.Op) → S.Reply op × W}
    (hrely : ∀ w, M.rely w w) (hexec : ∀ w choice op,
      M.step w op (exec w choice op).1 (exec w choice op).2)
    (turns : List (ι × χ)) (pool : ι → Program S α) (w : W) :
    M.PoolRuns pool w (replay exec turns pool w).1 (replay exec turns pool w).2.1
      (replay exec turns pool w).2.2 := by
  induction turns generalizing pool w with
  | nil => exact .refl pool w
  | cons first rest ih =>
    obtain ⟨i, choice⟩ := first
    unfold replay
    cases hi : pool i with
    | ret a => exact ih pool w
    | call op next => exact .call i hi (hrely w) (hexec w choice op) (ih _ _)

end Machine
end Doupro.Interaction
