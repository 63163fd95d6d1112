import Doupro.Interaction.Semantics

/-!
# Contracts on the calls of one party

A contract says which calls a party may make given what it has learned, what it takes
for granted of a reply, and what it learns from it. Nothing is assumed of the world
between two calls, so a program that obeys its contract does so in any interleaving.
-/

namespace Doupro.Interaction

variable {S : Signature} {W κ α β : Type}

structure Contract (S : Signature) (W κ : Type) where
  allowed : κ → S.Op → Prop
  expects : κ → Event S W → Prop
  next : κ → Event S W → κ

namespace Contract

/-- Every call of a trace is allowed, as long as the replies so far were as expected. -/
def Respected (C : Contract S W κ) : κ → Trace S W → Prop
  | _, [] => True
  | k, e :: rest => C.allowed k e.op ∧ (C.expects k e → C.Respected (C.next k e) rest)

/-- What a party has learned after a trace. -/
def learned (C : Contract S W κ) (k : κ) (trace : Trace S W) : κ := trace.foldl C.next k

/-- The replies of a trace were all as expected. -/
def Expected (C : Contract S W κ) : κ → Trace S W → Prop
  | _, [] => True
  | k, e :: rest => C.expects k e ∧ C.Expected (C.next k e) rest

/-- Every event of a trace meets a condition on what was learned before it. -/
def Along (C : Contract S W κ) (P : κ → Event S W → Prop) : κ → Trace S W → Prop
  | _, [] => True
  | k, e :: rest => P k e ∧ C.Along P (C.next k e) rest

instance {C : Contract S W κ} {P : κ → Event S W → Prop} [∀ k e, Decidable (P k e)] :
    (k : κ) → (trace : Trace S W) → Decidable (C.Along P k trace)
  | _, [] => inferInstanceAs (Decidable True)
  | k, e :: rest =>
    have : Decidable (C.Along P (C.next k e) rest) := instDecidableAlong (C.next k e) rest
    inferInstanceAs (Decidable (P k e ∧ _))

theorem along_trivial {C : Contract S W κ} (k : κ) (trace : Trace S W) :
    C.Along (fun _ _ => True) k trace := by
  induction trace generalizing k with
  | nil => trivial
  | cons e rest ih => exact ⟨trivial, ih _⟩

theorem along_of_forall {C : Contract S W κ} {P : Event S W → Prop} {trace : Trace S W}
    (h : ∀ e ∈ trace, P e) (k : κ) : C.Along (fun _ e => P e) k trace := by
  induction trace generalizing k with
  | nil => trivial
  | cons first rest ih =>
    obtain ⟨hfirst, hrest⟩ := List.forall_mem_cons.mp h
    exact ⟨hfirst, ih hrest _⟩

/-- An observer that notes whether every event so far met a condition. -/
theorem foldl_and {P : Event S W → Prop} {trace : Trace S W} {g : Prop} :
    trace.foldl (fun g e => g ∧ P e) g ↔ g ∧ ∀ e ∈ trace, P e := by
  induction trace generalizing g with
  | nil => simp
  | cons first rest ih =>
    rw [List.foldl_cons, ih, List.forall_mem_cons, and_assoc]

theorem expected_of_forall {C : Contract S W κ} {trace : Trace S W}
    (h : ∀ e ∈ trace, ∀ k, C.expects k e) (k : κ) : C.Expected k trace := by
  induction trace generalizing k with
  | nil => trivial
  | cons first rest ih =>
    obtain ⟨hfirst, hrest⟩ := List.forall_mem_cons.mp h
    exact ⟨hfirst k, ih hrest _⟩

theorem respected_append {C : Contract S W κ} {k : κ} {before after : Trace S W} {e : Event S W}
    (h : C.Respected k (before ++ e :: after)) (hexp : C.Expected k before) :
    C.allowed (C.learned k before) e.op := by
  induction before generalizing k with
  | nil => exact h.1
  | cons first before ih => exact ih (h.2 hexp.1) hexp.2

/-- In a trace whose replies are all as expected, every call is allowed. -/
theorem Respected.allowed {C : Contract S W κ} {k : κ} {trace : Trace S W} (h : C.Respected k trace)
    (hexp : ∀ e ∈ trace, ∀ k, C.expects k e) : ∀ e ∈ trace, ∃ k, C.allowed k e.op := by
  induction trace generalizing k with
  | nil => simp
  | cons first rest ih =>
    obtain ⟨hfirst, hrest⟩ := List.forall_mem_cons.mp hexp
    exact List.forall_mem_cons.mpr ⟨⟨k, h.1⟩, ih (h.2 (hfirst k)) hrest⟩

/-- Two contracts at once. -/
def prod {μ : Type} (C : Contract S W κ) (D : Contract S W μ) : Contract S W (κ × μ) where
  allowed k op := C.allowed k.1 op ∧ D.allowed k.2 op
  expects k e := C.expects k.1 e ∧ D.expects k.2 e
  next k e := (C.next k.1 e, D.next k.2 e)

theorem learned_prod {μ : Type} {C : Contract S W κ} {D : Contract S W μ} (k : κ × μ)
    (trace : Trace S W) : (C.prod D).learned k trace = (C.learned k.1 trace, D.learned k.2 trace) := by
  induction trace generalizing k with
  | nil => rfl
  | cons e rest ih => exact ih _

/-- What a party may call depends on all it did so far. -/
def ofHistory (allowed : Trace S W → S.Op → Prop) : Contract S W (Trace S W) where
  allowed := allowed
  expects _ _ := True
  next k e := k ++ [e]

end Contract

namespace Machine

/-- The calls a program may make first, whatever happens to the world in between. -/
def Admits (M : Machine S W) : Program S α → Trace S W → Prop
  | _, [] => True
  | .ret _, _ :: _ => False
  | .call op next, e :: rest => ∃ r w', e = ⟨e.world, op, r⟩ ∧ M.step e.world op r w' ∧
      M.Admits (next r) rest

def obeys (M : Machine S W) (C : Contract S W κ) : Program S α → κ → (κ → α → Prop) → Prop
  | .ret a, k, Q => Q k a
  | .call op next, k, Q => C.allowed k op ∧ ∀ w r w', M.step w op r w' → C.expects k ⟨w, op, r⟩ →
      M.obeys C (next r) (C.next k ⟨w, op, r⟩) Q

variable {M : Machine S W} {C : Contract S W κ}

theorem obeys_bind {p : Program S α} {f : α → Program S β} {k : κ} {Q : κ → β → Prop} :
    M.obeys C (p >>= f) k Q ↔ M.obeys C p k fun k' a => M.obeys C (f a) k' Q := by
  change M.obeys C (p.bind f) k Q ↔ _
  induction p generalizing k with
  | ret a => rfl
  | call op next ih => simp only [Program.bind, obeys, ih]

@[simp] theorem obeys_pure {a : α} {k : κ} {Q : κ → α → Prop} :
    M.obeys C (pure a) k Q ↔ Q k a := Iff.rfl

theorem obeys_request_bind {op : S.Op} {f : S.Reply op → Program S α} {k : κ} {Q : κ → α → Prop} :
    M.obeys C (.request op >>= f) k Q ↔ C.allowed k op ∧ ∀ w r w', M.step w op r w' →
      C.expects k ⟨w, op, r⟩ → M.obeys C (f r) (C.next k ⟨w, op, r⟩) Q := Iff.rfl

theorem obeys_mono {p : Program S α} {k : κ} {Q R : κ → α → Prop} (h : M.obeys C p k Q)
    (hQ : ∀ k a, Q k a → R k a) : M.obeys C p k R := by
  induction p generalizing k with
  | ret a => exact hQ k a h
  | call op next ih =>
    exact ⟨h.1, fun w r w' hstep hexp => ih r (h.2 w r w' hstep hexp)⟩

/-- A program that obeys two contracts obeys both at once. -/
theorem obeys_prod {μ : Type} {D : Contract S W μ} {p : Program S α} {k : κ} {l : μ} {Q : κ → α → Prop}
    {R : μ → α → Prop} (hC : M.obeys C p k Q) (hD : M.obeys D p l R) :
    M.obeys (C.prod D) p (k, l) fun ks a => Q ks.1 a ∧ R ks.2 a := by
  induction p generalizing k l with
  | ret a => exact ⟨hC, hD⟩
  | call op next ih =>
    exact ⟨⟨hC.1, hD.1⟩, fun w r w' hstep hexp =>
      ih r (hC.2 w r w' hstep hexp.1) (hD.2 w r w' hstep hexp.2)⟩

/-- Calls that a contract allows at some point and learns nothing from. -/
theorem obeys_of_uses_at {P : S.Op → Prop} {k : κ} (hallowed : ∀ op, P op → C.allowed k op)
    (hnext : ∀ e : Event S W, P e.op → C.next k e = k) {p : Program S α} (hp : p.Uses P) :
    M.obeys C p k fun k' _ => k' = k := by
  induction p with
  | ret a => rfl
  | call op next ih =>
    refine ⟨hallowed op hp.1, fun w r w' _ _ => ?_⟩
    rw [hnext ⟨w, op, r⟩ hp.1]
    exact ih r (hp.2 r)

/-- Calls that a contract always allows and learns nothing from. -/
theorem obeys_of_uses {P : S.Op → Prop} (hallowed : ∀ k op, P op → C.allowed k op)
    (hnext : ∀ k (e : Event S W), P e.op → C.next k e = k) {p : Program S α} (hp : p.Uses P)
    (k : κ) : M.obeys C p k fun k' _ => k' = k :=
  obeys_of_uses_at (hallowed k) (hnext k) hp

/-- Calls that a contract always allows, whatever it learns from them. -/
theorem obeys_of_uses_always {P : S.Op → Prop} (hallowed : ∀ k op, P op → C.allowed k op)
    {p : Program S α} (hp : p.Uses P) (k : κ) : M.obeys C p k fun _ _ => True := by
  induction p generalizing k with
  | ret a => trivial
  | call op next ih => exact ⟨hallowed k op hp.1, fun _ r _ _ _ => ih r (hp.2 r) _⟩

/-- A party whose calls its past never forbids, and what it did before. -/
theorem obeys_grows {allowed : Trace S W → S.Op → Prop} {P : S.Op → Prop}
    (hallowed : ∀ past op, P op → allowed past op) {p : Program S α} (hp : p.Uses P)
    (past : Trace S W) :
    M.obeys (.ofHistory allowed) p past fun past' _ => past <+: past' := by
  induction p generalizing past with
  | ret a => exact List.prefix_refl past
  | call op next ih =>
    refine ⟨hallowed past op hp.1, fun w r w' _ _ => ?_⟩
    exact obeys_mono (ih r (hp.2 r) _) fun past' _ hmore =>
      (List.prefix_append past [⟨w, op, r⟩]).trans hmore

/-- The calls of a run are calls the program may make first. -/
theorem runs_admits {p : Program S α} {w w' : W} {trace : Trace S W} {a : α}
    (h : M.Runs p w trace a w') : M.Admits p trace := by
  induction p generalizing w trace with
  | ret b =>
    obtain ⟨rfl, -, -⟩ := h
    trivial
  | call op next ih =>
    obtain ⟨w₀, r, w₁, rest, -, hstep, rfl, hrest⟩ := h
    exact ⟨r, w₁, rfl, hstep, ih r hrest⟩

/-- A program that obeys a contract respects it in whatever it gets to do. -/
theorem respected_of_obeys {p : Program S α} {k : κ} {Q : κ → α → Prop} (h : M.obeys C p k Q)
    {trace : Trace S W} (hadm : M.Admits p trace) : C.Respected k trace := by
  induction p generalizing k trace with
  | ret a =>
    cases trace with
    | nil => trivial
    | cons e rest => exact hadm.elim
  | call op next ih =>
    cases trace with
    | nil => trivial
    | cons e rest =>
      obtain ⟨r, w', he, hstep, hrest⟩ := hadm
      have hop : e.op = op := by rw [he]
      refine ⟨hop ▸ h.1, fun hexp => ?_⟩
      rw [he] at hexp ⊢
      exact ih r (h.2 _ r w' hstep hexp) hrest

/-- What a program that obeys a contract has learned and returns, if all replies were as expected. -/
theorem obeys_runs {p : Program S α} {k : κ} {Q : κ → α → Prop} (h : M.obeys C p k Q)
    {w w' : W} {trace : Trace S W} {a : α} (hrun : M.Runs p w trace a w')
    (hexp : C.Expected k trace) : Q (C.learned k trace) a := by
  induction p generalizing k w trace with
  | ret b =>
    obtain ⟨rfl, rfl, -⟩ := hrun
    exact h
  | call op next ih =>
    obtain ⟨w₀, r, w₁, rest, -, hstep, rfl, hrest⟩ := hrun
    exact ih r (h.2 w₀ r w₁ hstep hexp.1) hrest hexp.2

/-- An invariant of the world, of what a program has learned and of what an observer notes, kept
by every call the contract allows. -/
theorem obeys_invariant {γ : Type} {o : γ → Event S W → γ} {P : κ → Event S W → Prop}
    {J : W → κ → γ → Prop} (hrely : ∀ {w w₀ k g}, J w k g → M.rely w w₀ → J w₀ k g)
    (hstep : ∀ {w w' k g} {op : S.Op} {r : S.Reply op}, J w k g → C.allowed k op →
      M.step w op r w' → P k ⟨w, op, r⟩ →
      C.expects k ⟨w, op, r⟩ ∧ J w' (C.next k ⟨w, op, r⟩) (o g ⟨w, op, r⟩))
    {p : Program S α} {k : κ} {g : γ} {Q : κ → α → Prop} (h : M.obeys C p k Q) {w w' : W}
    {trace : Trace S W} {a : α} (hrun : M.Runs p w trace a w') (hP : C.Along P k trace)
    (hJ : J w k g) : J w' (C.learned k trace) (trace.foldl o g) ∧ Q (C.learned k trace) a := by
  induction p generalizing k w trace g with
  | ret b =>
    obtain ⟨rfl, rfl, rfl⟩ := hrun
    exact ⟨hJ, h⟩
  | call op next ih =>
    obtain ⟨w₀, r, w₁, rest, henv, hcall, rfl, hrest⟩ := hrun
    obtain ⟨hexpects, hJ'⟩ := hstep (hrely hJ henv) h.1 hcall hP.1
    exact ih r (h.2 w₀ r w₁ hcall hexpects) hrest hP.2 hJ'

/-- An invariant of the world and of what a program has learned. -/
theorem obeys_keeps {P : κ → Event S W → Prop} {J : W → κ → Prop}
    (hrely : ∀ {w w₀ k}, J w k → M.rely w w₀ → J w₀ k)
    (hstep : ∀ {w w' k} {op : S.Op} {r : S.Reply op}, J w k → C.allowed k op →
      M.step w op r w' → P k ⟨w, op, r⟩ → C.expects k ⟨w, op, r⟩ ∧ J w' (C.next k ⟨w, op, r⟩))
    {p : Program S α} {k : κ} {Q : κ → α → Prop} (h : M.obeys C p k Q) {w w' : W}
    {trace : Trace S W} {a : α} (hrun : M.Runs p w trace a w') (hP : C.Along P k trace)
    (hJ : J w k) : J w' (C.learned k trace) ∧ Q (C.learned k trace) a :=
  obeys_invariant (o := fun (_ : Unit) _ => ()) (g := ()) (J := fun w k _ => J w k) hrely hstep h hrun hP hJ

/-- What a program can call is all it ever calls. -/
theorem admits_uses {P : S.Op → Prop} {p : Program S α} (hp : p.Uses P) {trace : Trace S W}
    (hadm : M.Admits p trace) : ∀ e ∈ trace, P e.op := by
  induction p generalizing trace with
  | ret a =>
    cases trace with
    | nil => simp
    | cons e rest => exact hadm.elim
  | call op next ih =>
    cases trace with
    | nil => simp
    | cons e rest =>
      obtain ⟨r, w', he, -, hrest⟩ := hadm
      refine List.forall_mem_cons.mpr ⟨?_, ih r (hp.2 r) hrest⟩
      rw [he]
      exact hp.1

end Machine
end Doupro.Interaction
