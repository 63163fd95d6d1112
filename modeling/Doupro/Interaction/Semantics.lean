import Doupro.Interaction.Syntax

/-!
# Runs of a program on a machine

A machine says how the world may change between two calls and which replies and
successor worlds a call may have. A run lists every call with the world it met.
-/

namespace Doupro.Interaction

variable {S : Signature} {W α β : Type}

structure Machine (S : Signature) (W : Type) where
  /-- What the environment may do before a call. -/
  rely : W → W → Prop
  /-- What the call may answer and leave behind. -/
  step : W → (op : S.Op) → S.Reply op → W → Prop

/-- One call of a run: the world it met, and its reply. -/
structure Event (S : Signature) (W : Type) where
  world : W
  op : S.Op
  reply : S.Reply op

abbrev Trace (S : Signature) (W : Type) := List (Event S W)

namespace Machine

/-- The machine whose calls all meet a condition. -/
def restrict (M : Machine S W) (ok : Event S W → Prop) : Machine S W where
  rely := M.rely
  step w op r w' := M.step w op r w' ∧ ok ⟨w, op, r⟩

def Runs (M : Machine S W) : Program S α → W → Trace S W → α → W → Prop
  | .ret a, w, trace, b, w' => trace = [] ∧ b = a ∧ w' = w
  | .call op next, w, trace, b, w' => ∃ w₀ r w₁ rest, M.rely w w₀ ∧ M.step w₀ op r w₁ ∧
      trace = ⟨w₀, op, r⟩ :: rest ∧ M.Runs (next r) w₁ rest b w'

variable {M : Machine S W} {w : W}

theorem runs_request_bind {op : S.Op} {f : S.Reply op → Program S α} {trace : Trace S W} {a : α}
    {w' : W} : M.Runs (.request op >>= f) w trace a w' ↔ ∃ w₀ r w₁ rest, M.rely w w₀ ∧
      M.step w₀ op r w₁ ∧ trace = ⟨w₀, op, r⟩ :: rest ∧ M.Runs (f r) w₁ rest a w' := Iff.rfl

theorem runs_bind {p : Program S α} {f : α → Program S β} {trace : Trace S W} {b : β} {w' : W} :
    M.Runs (p >>= f) w trace b w' ↔ ∃ first a w₁ rest, M.Runs p w first a w₁ ∧
      M.Runs (f a) w₁ rest b w' ∧ trace = first ++ rest := by
  change M.Runs (p.bind f) w trace b w' ↔ _
  induction p generalizing w trace with
  | ret a =>
    constructor
    · intro h
      exact ⟨[], a, w, trace, ⟨rfl, rfl, rfl⟩, h, rfl⟩
    · rintro ⟨first, a', w₁, rest, ⟨rfl, rfl, rfl⟩, h, rfl⟩
      exact h
  | call op next ih =>
    constructor
    · rintro ⟨w₀, r, w₁, rest, hrely, hstep, rfl, hrest⟩
      obtain ⟨first, a, w₂, tail, hfirst, htail, rfl⟩ := (ih r).mp hrest
      exact ⟨⟨w₀, op, r⟩ :: first, a, w₂, tail, ⟨w₀, r, w₁, first, hrely, hstep, rfl, hfirst⟩,
        htail, rfl⟩
    · rintro ⟨first, a, w₂, tail, ⟨w₀, r, w₁, rest, hrely, hstep, rfl, hrest⟩, htail, rfl⟩
      exact ⟨w₀, r, w₁, rest ++ tail, hrely, hstep, rfl, (ih r).mpr ⟨_, a, w₂, _, hrest, htail, rfl⟩⟩

/-- A trace tells how far a program gets and what it returns. -/
theorem runs_unique {p : Program S α} {v w' v' : W} {first second rest later : Trace S W} {a b : α}
    (h : M.Runs p w first a w') (h' : M.Runs p v second b v')
    (htrace : first ++ rest = second ++ later) : first = second ∧ a = b ∧ rest = later := by
  induction p generalizing w v first second with
  | ret c =>
    obtain ⟨rfl, rfl, -⟩ := h
    obtain ⟨rfl, rfl, -⟩ := h'
    exact ⟨rfl, rfl, htrace⟩
  | call op next ih =>
    obtain ⟨w₀, r, w₁, more, -, -, rfl, hmore⟩ := h
    obtain ⟨v₀, r', v₁, more', -, -, rfl, hmore'⟩ := h'
    obtain ⟨hevent, hrest⟩ := List.cons.inj htrace
    obtain ⟨rfl, -, hreply⟩ := Event.mk.inj hevent
    obtain rfl := eq_of_heq hreply
    obtain ⟨rfl, rfl, rfl⟩ := ih r hmore hmore' hrest
    exact ⟨rfl, rfl, rfl⟩

/-- Two programs that make the same call and go on alike have the same runs. -/
theorem runs_request_congr {op : S.Op} {f g : S.Reply op → Program S α} {trace : Trace S W} {a : α}
    {w' : W} (h : ∀ w₀ r w₁, M.rely w w₀ → M.step w₀ op r w₁ → ∀ rest,
      M.Runs (f r) w₁ rest a w' ↔ M.Runs (g r) w₁ rest a w') :
    M.Runs (.request op >>= f) w trace a w' ↔ M.Runs (.request op >>= g) w trace a w' := by
  rw [runs_request_bind, runs_request_bind]
  constructor
  · rintro ⟨w₀, r, w₁, rest, hrely, hstep, rfl, hrest⟩
    exact ⟨w₀, r, w₁, rest, hrely, hstep, rfl, (h w₀ r w₁ hrely hstep rest).mp hrest⟩
  · rintro ⟨w₀, r, w₁, rest, hrely, hstep, rfl, hrest⟩
    exact ⟨w₀, r, w₁, rest, hrely, hstep, rfl, (h w₀ r w₁ hrely hstep rest).mpr hrest⟩

/-- Runs of a restricted machine are the runs whose calls all meet the condition. -/
theorem runs_restrict {ok : Event S W → Prop} {p : Program S α} {trace : Trace S W} {a : α}
    {w' : W} : (M.restrict ok).Runs p w trace a w' ↔
      M.Runs p w trace a w' ∧ ∀ e ∈ trace, ok e := by
  induction p generalizing w trace with
  | ret b =>
    constructor
    · rintro ⟨rfl, rfl, rfl⟩
      exact ⟨⟨rfl, rfl, rfl⟩, by simp⟩
    · rintro ⟨h, -⟩
      exact h
  | call op next ih =>
    constructor
    · rintro ⟨w₀, r, w₁, rest, hrely, ⟨hstep, hok⟩, rfl, hrest⟩
      obtain ⟨hruns, hall⟩ := (ih r).mp hrest
      exact ⟨⟨w₀, r, w₁, rest, hrely, hstep, rfl, hruns⟩, List.forall_mem_cons.mpr ⟨hok, hall⟩⟩
    · rintro ⟨⟨w₀, r, w₁, rest, hrely, hstep, rfl, hruns⟩, hall⟩
      obtain ⟨hok, hrest⟩ := List.forall_mem_cons.mp hall
      exact ⟨w₀, r, w₁, rest, hrely, ⟨hstep, hok⟩, rfl, (ih r).mpr ⟨hruns, hrest⟩⟩

/-- A trace leads from a world to a world, whatever program made its calls. -/
def Path (M : Machine S W) (w : W) : Trace S W → W → Prop
  | [], w' => w' = w
  | e :: rest, w' => ∃ w₁, M.rely w e.world ∧ M.step e.world e.op e.reply w₁ ∧
      Path M w₁ rest w'

theorem runs_path {p : Program S α} {trace : Trace S W} {a : α} {w' : W}
    (h : M.Runs p w trace a w') : M.Path w trace w' := by
  induction p generalizing w trace with
  | ret b =>
    obtain ⟨rfl, rfl, rfl⟩ := h
    rfl
  | call op next ih =>
    obtain ⟨w₀, r, w₁, rest, hrely, hstep, rfl, hrest⟩ := h
    exact ⟨w₁, hrely, hstep, ih r hrest⟩

theorem path_append {first rest : Trace S W} {w' : W} :
    M.Path w (first ++ rest) w' ↔ ∃ w₁, M.Path w first w₁ ∧ M.Path w₁ rest w' := by
  induction first generalizing w with
  | nil => simp [Path]
  | cons e first ih =>
    constructor
    · rintro ⟨w₁, hrely, hstep, h⟩
      obtain ⟨w₂, hfirst, hrest⟩ := ih.mp h
      exact ⟨w₂, ⟨w₁, hrely, hstep, hfirst⟩, hrest⟩
    · rintro ⟨w₂, ⟨w₁, hrely, hstep, hfirst⟩, hrest⟩
      exact ⟨w₁, hrely, hstep, ih.mpr ⟨w₂, hfirst, hrest⟩⟩

/-- An invariant that the environment and the calls of a trace keep. -/
theorem path_invariant {I : W → Prop} {P : Event S W → Prop}
    (hrely : ∀ w w', I w → M.rely w w' → I w')
    (hstep : ∀ w op r w', P ⟨w, op, r⟩ → I w → M.step w op r w' → I w')
    {trace : Trace S W} {w' : W} (hpath : M.Path w trace w') (hall : ∀ e ∈ trace, P e) (h : I w) :
    I w' := by
  induction trace generalizing w with
  | nil => exact hpath ▸ h
  | cons e rest ih =>
    obtain ⟨w₁, hr, hs, hrest⟩ := hpath
    obtain ⟨he, hall⟩ := List.forall_mem_cons.mp hall
    exact ih hrest hall (hstep _ _ _ _ he (hrely _ _ h hr) hs)

/-- What holds of the worlds of a trace: an invariant, and an order that time follows. -/
theorem path_events {I : W → Prop} {R : W → W → Prop} {P : Event S W → Prop}
    (hrefl : ∀ w, R w w) (htrans : ∀ {w₁ w₂ w₃}, R w₁ w₂ → R w₂ w₃ → R w₁ w₃)
    (hrely : ∀ w w', M.rely w w' → R w w' ∧ (I w → I w'))
    (hstep : ∀ w op r w', M.step w op r w' → R w w' ∧ (P ⟨w, op, r⟩ → I w → I w'))
    {trace : Trace S W} {w' : W} (hpath : M.Path w trace w') (hall : ∀ e ∈ trace, P e) (h : I w) :
    (R w w' ∧ I w') ∧ ∀ e ∈ trace, (I e.world ∧ R e.world w') ∧
      ∃ w₁, M.step e.world e.op e.reply w₁ := by
  induction trace generalizing w with
  | nil => exact ⟨⟨hpath ▸ hrefl w, hpath ▸ h⟩, by simp⟩
  | cons e rest ih =>
    obtain ⟨w₁, hr, hs, hrest⟩ := hpath
    obtain ⟨he, hall⟩ := List.forall_mem_cons.mp hall
    have hmet := (hrely _ _ hr).2 h
    obtain ⟨⟨hlater, hend⟩, hevents⟩ := ih hrest hall ((hstep _ _ _ _ hs).2 he hmet)
    have hfrom := htrans (hstep _ _ _ _ hs).1 hlater
    exact ⟨⟨htrans (hrely _ _ hr).1 hfrom, hend⟩,
      List.forall_mem_cons.mpr ⟨⟨⟨hmet, hfrom⟩, w₁, hs⟩, hevents⟩⟩

/-- What a program can call is all a run of it calls. -/
theorem runs_uses {P : S.Op → Prop} {p : Program S α} (hp : p.Uses P) {trace : Trace S W} {a : α}
    {w' : W} (h : M.Runs p w trace a w') : ∀ e ∈ trace, P e.op := by
  induction p generalizing w trace with
  | ret b =>
    obtain ⟨rfl, -, -⟩ := h
    simp
  | call op next ih =>
    obtain ⟨w₀, r, w₁, rest, -, -, rfl, hrest⟩ := h
    exact List.forall_mem_cons.mpr ⟨hp.1, ih r (hp.2 r) hrest⟩

end Machine
end Doupro.Interaction
