import Doupro.Go.Base64

/-!
# Base64 with padding

`base64.StdEncoding`: the last letters are filled up to four.
-/

namespace Doupro.Base64

/-- `=`. -/
def pad : UInt8 := 61

/-- `StdEncoding.EncodeToString`. -/
def encodePadded : Bytes → Bytes
  | a :: b :: c :: rest => encodeToString [a, b, c] ++ encodePadded rest
  | [] => []
  | rest => encodeToString rest ++ List.replicate (3 - rest.length) pad

/-- The bytes of at most four letters. -/
def quantum (letters : Bytes) : Option Bytes := (letters.mapM sextet).bind octets

/-- Four letters at a time. Only the last four may end in padding. -/
def quanta : Bytes → Option Bytes
  | a :: b :: c :: d :: rest =>
    if rest = [] ∧ d = pad then quantum (if c = pad then [a, b] else [a, b, c])
    else (quantum [a, b, c, d]).bind fun bytes => (quanta rest).map (bytes ++ ·)
  | [] => some []
  | _ => none

/-- `StdEncoding.DecodeString`. -/
def decodePadded (text : Bytes) : Option Bytes := quanta (text.filter fun c => c ≠ 10 ∧ c ≠ 13)

theorem letter_range : ∀ n < 64, 33 ≤ letter n ∧ letter n < 127 := by decide

theorem letter_ne_pad : ∀ n < 64, letter n ≠ pad := by decide

theorem quantum_encode (bytes : Bytes) : quantum (encodeToString bytes) = some bytes := by
  rw [quantum, encodeToString, mapM_sextet (sextets_lt bytes)]
  exact octets_sextets bytes

theorem encodeToString_ne_pad (bytes : Bytes) : ∀ c ∈ encodeToString bytes, c ≠ pad := by
  intro c hc
  obtain ⟨n, hn, rfl⟩ := List.mem_map.mp hc
  exact letter_ne_pad n (sextets_lt bytes n hn)

/-- What is left to be filled up is one byte or two. -/
theorem lastQuantum_cases {rest : Bytes} (hlong : ∀ a b c tail, rest ≠ a :: b :: c :: tail)
    (hnonempty : rest ≠ []) : (∃ a, rest = [a]) ∨ ∃ a b, rest = [a, b] := by
  cases rest with
  | nil => exact absurd rfl hnonempty
  | cons a rest => cases rest with
    | nil => exact .inl ⟨a, rfl⟩
    | cons b rest => cases rest with
      | nil => exact .inr ⟨a, b, rfl⟩
      | cons c tail => exact absurd rfl (hlong a b c tail)

theorem quanta_encodePadded (bytes : Bytes) : quanta (encodePadded bytes) = some bytes := by
  induction bytes using encodePadded.induct with
  | case1 a b c rest ih =>
    have hfour := quantum_encode [a, b, c]
    have hpad := encodeToString_ne_pad [a, b, c]
    simp only [encodePadded]
    simp only [encodeToString, sextets, List.map_cons, List.map_nil] at hfour hpad ⊢
    have hlast : ∀ n : Nat, letter (n % 64) ≠ pad := fun n => letter_ne_pad _ (Nat.mod_lt _ (by decide))
    simp only [List.cons_append, List.nil_append, quanta, hlast, and_false, if_false, hfour, ih,
      Option.bind_some, Option.map_some]
  | case2 => rfl
  | case3 rest hlong hnonempty =>
    obtain ⟨a, rfl⟩ | ⟨a, b, rfl⟩ := lastQuantum_cases hlong hnonempty
    · have hone := quantum_encode [a]
      simp only [encodeToString, sextets, List.map_cons, List.map_nil] at hone
      simpa [encodePadded, encodeToString, sextets, quanta, List.replicate] using hone
    · have htwo := quantum_encode [a, b]
      have hpad := encodeToString_ne_pad [a, b]
      simp only [encodeToString, sextets, List.map_cons, List.map_nil] at htwo hpad
      simp only [encodePadded, encodeToString, sextets, quanta, List.map_cons, List.map_nil,
        List.cons_append, List.nil_append, List.length_cons, List.length_nil, List.replicate,
        and_self, if_true]
      rw [if_neg (hpad _ (by simp))]
      exact htwo

/-- What an encoded text consists of. -/
theorem encodePadded_range (bytes : Bytes) : ∀ c ∈ encodePadded bytes, 33 ≤ c ∧ c < 127 := by
  have hletters (rest : Bytes) : ∀ c ∈ encodeToString rest, 33 ≤ c ∧ c < 127 := by
    intro c hc
    obtain ⟨n, hn, rfl⟩ := List.mem_map.mp hc
    exact letter_range n (sextets_lt rest n hn)
  induction bytes using encodePadded.induct with
  | case1 a b c rest ih =>
    intro x hx
    rw [encodePadded, List.mem_append] at hx
    exact hx.elim (hletters _ x) (ih x)
  | case2 => simp [encodePadded]
  | case3 rest hlong hnonempty =>
    intro x hx
    rw [encodePadded, List.mem_append] at hx
    rcases hx with hx | hx
    · exact hletters rest x hx
    · rw [List.eq_of_mem_replicate hx]
      decide
    all_goals assumption

/-- What was encoded is decoded to itself. -/
theorem decodePadded_encodePadded (bytes : Bytes) : decodePadded (encodePadded bytes) = some bytes := by
  have hkept : (encodePadded bytes).filter (fun c => c ≠ 10 ∧ c ≠ 13) = encodePadded bytes := by
    rw [List.filter_eq_self]
    intro c hc
    have hrange := encodePadded_range bytes c hc
    simp only [decide_eq_true_eq]
    constructor <;> rintro rfl <;> exact absurd hrange (by decide)
  rw [decodePadded, hkept, quanta_encodePadded]

/-! ### Lengths -/

theorem length_encodePadded (bytes : Bytes) :
    (encodePadded bytes).length = 4 * ((bytes.length + 2) / 3) := by
  induction bytes using encodePadded.induct with
  | case1 a b c rest ih =>
    simp only [encodePadded, encodeToString, sextets, List.map_cons, List.map_nil, List.length_append,
      List.length_cons, List.length_nil, ih]
    omega
  | case2 => rfl
  | case3 rest hlong hnonempty =>
    obtain ⟨a, rfl⟩ | ⟨a, b, rfl⟩ := lastQuantum_cases hlong hnonempty
    · simp [encodePadded, encodeToString, sextets]
    · simp [encodePadded, encodeToString, sextets]

theorem length_of_mapM {α β : Type} {f : α → Option β} {l : List α} {out : List β}
    (h : l.mapM f = some out) : out.length = l.length := by
  induction l generalizing out with
  | nil =>
    cases h
    rfl
  | cons a l ih =>
    simp only [List.mapM_cons, Option.pure_def, Option.bind_eq_bind, Option.bind_eq_some_iff] at h
    obtain ⟨b, -, rest, hrest, hout⟩ := h
    cases hout
    rw [List.length_cons, List.length_cons, ih hrest]

theorem length_octets {ns : List Nat} {bytes : Bytes} (h : octets ns = some bytes) :
    4 * bytes.length ≤ 3 * ns.length := by
  induction ns using octets.induct generalizing bytes with
  | case1 a b c d rest ih =>
    simp only [octets] at h
    obtain ⟨tail, htail, rfl⟩ := Option.map_eq_some_iff.mp h
    have := ih htail
    simp only [List.length_cons]
    omega
  | case2 a b c =>
    cases h
    simp
  | case3 a b =>
    cases h
    simp
  | case4 => cases h
  | case5 =>
    cases h
    simp

theorem length_quantum {letters bytes : Bytes} (h : quantum letters = some bytes) :
    4 * bytes.length ≤ 3 * letters.length := by
  obtain ⟨ns, hns, hbytes⟩ := Option.bind_eq_some_iff.mp h
  rw [← length_of_mapM hns]
  exact length_octets hbytes

/-- Four letters are needed for every three bytes, and for every part of them. -/
theorem length_quanta {text bytes : Bytes} (h : quanta text = some bytes) :
    bytes.length ≤ 3 * (text.length / 4) := by
  induction text using quanta.induct generalizing bytes with
  | case1 a b c d rest hlast =>
    rw [quanta, if_pos hlast] at h
    have := length_quantum h
    have hle : (if c = pad then [a, b] else [a, b, c]).length ≤ 3 := by split <;> simp
    simp only [List.length_cons]
    omega
  | case2 a b c d rest hlast ih =>
    rw [quanta, if_neg hlast] at h
    obtain ⟨first, hfirst, hrest⟩ := Option.bind_eq_some_iff.mp h
    obtain ⟨tail, htail, rfl⟩ := Option.map_eq_some_iff.mp hrest
    have := length_quantum hfirst
    have := ih htail
    simp only [List.length_cons, List.length_append, List.length_nil] at *
    omega
  | case3 =>
    cases h
    decide
  | case4 text hfour hnonempty => simp [quanta] at h

theorem length_decodePadded {text bytes : Bytes} (h : decodePadded text = some bytes) :
    bytes.length ≤ 3 * (text.length / 4) := by
  have hle := length_quanta h
  have hfilter := List.length_filter_le (fun c : UInt8 => decide (c ≠ 10 ∧ c ≠ 13)) text
  omega

end Doupro.Base64
