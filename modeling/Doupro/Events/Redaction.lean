import Doupro.Go.JsonText
import Doupro.Go.Strings

/-!
# Redacted metadata

`redact` replaces values of the top level of an event's metadata. A secret stands under a
redacted key at any depth; `overwrite` is the abstract operation that fills all of those
places, and two metadata maps agree when they are equal after it.
-/

namespace Doupro

namespace Events

def redactedKeys : List String :=
  ["password", "token", "api_key", "apikey", "secret", "credential", "webhook_url"]

def sensitive (key : String) : Bool := redactedKeys.contains (toLower key)

example : sensitive "API_Key" ∧ ¬ sensitive "provider" := by decide

def redact (metadata : List (String × Json)) : List (String × Json) :=
  metadata.map fun (key, value) => if sensitive key then (key, .string "[REDACTED]") else (key, value)

mutual

/-- A value with one filler under every redacted key, at any depth. -/
def overwrite (filler : Json) : Json → Json
  | .array items => .array (overwriteItems filler items)
  | .object fields => .object (overwriteFields filler fields)
  | .null => .null
  | .bool b => .bool b
  | .number n => .number n
  | .string s => .string s

def overwriteItems (filler : Json) : List Json → List Json
  | [] => []
  | item :: rest => overwrite filler item :: overwriteItems filler rest

def overwriteFields (filler : Json) : List (String × Json) → List (String × Json)
  | [] => []
  | (key, value) :: rest =>
    (key, if sensitive key then filler else overwrite filler value) :: overwriteFields filler rest

end

mutual

/-- No redacted key at any depth. -/
def clear : Json → Bool
  | .array items => clearItems items
  | .object fields => clearFields fields
  | .null | .bool _ | .number _ | .string _ => true

def clearItems : List Json → Bool
  | [] => true
  | item :: rest => clear item && clearItems rest

def clearFields : List (String × Json) → Bool
  | [] => true
  | (key, value) :: rest => !sensitive key && clear value && clearFields rest

end

/-- No redacted key inside the value of another key: `redact` reaches all of them. -/
def shallow (metadata : List (String × Json)) : Bool :=
  metadata.all fun (key, value) => sensitive key || clear value

/-- Two metadata maps that differ only in values under redacted keys. A map has no order,
so both are listed in one. -/
def Agree (m m' : List (String × Json)) : Prop :=
  overwriteFields .null m = overwriteFields .null m'

/-! ## Filling twice, and filling nothing -/

mutual

theorem overwrite_overwrite (a b : Json) : ∀ value : Json,
    overwrite a (overwrite b value) = overwrite a value
  | .array items => by simp only [overwrite, overwriteItems_overwriteItems a b items]
  | .object fields => by simp only [overwrite, overwriteFields_overwriteFields a b fields]
  | .null | .bool _ | .number _ | .string _ => by simp only [overwrite]

theorem overwriteItems_overwriteItems (a b : Json) : ∀ items : List Json,
    overwriteItems a (overwriteItems b items) = overwriteItems a items
  | [] => by simp only [overwriteItems]
  | item :: rest => by
    simp only [overwriteItems, overwrite_overwrite a b item,
      overwriteItems_overwriteItems a b rest]

theorem overwriteFields_overwriteFields (a b : Json) : ∀ fields : List (String × Json),
    overwriteFields a (overwriteFields b fields) = overwriteFields a fields
  | [] => by simp only [overwriteFields]
  | (key, value) :: rest => by
    by_cases hkey : sensitive key
    · simp only [overwriteFields, hkey, if_true, overwriteFields_overwriteFields a b rest]
    · simp only [overwriteFields, hkey, Bool.false_eq_true, if_false,
        overwrite_overwrite a b value, overwriteFields_overwriteFields a b rest]

end

theorem agree_overwriteFields (filler : Json) (m : List (String × Json)) :
    Agree m (overwriteFields filler m) := (overwriteFields_overwriteFields .null filler m).symm

mutual

theorem overwrite_of_clear (filler : Json) : ∀ {value : Json}, clear value = true →
    overwrite filler value = value
  | .array items, h => by
    rw [clear] at h
    rw [overwrite, overwriteItems_of_clear filler h]
  | .object fields, h => by
    rw [clear] at h
    rw [overwrite, overwriteFields_of_clear filler h]
  | .null, _ | .bool _, _ | .number _, _ | .string _, _ => by rw [overwrite]

theorem overwriteItems_of_clear (filler : Json) : ∀ {items : List Json},
    clearItems items = true → overwriteItems filler items = items
  | [], _ => by rw [overwriteItems]
  | item :: rest, h => by
    simp only [clearItems, Bool.and_eq_true] at h
    rw [overwriteItems, overwrite_of_clear filler h.1, overwriteItems_of_clear filler h.2]

theorem overwriteFields_of_clear (filler : Json) : ∀ {fields : List (String × Json)},
    clearFields fields = true → overwriteFields filler fields = fields
  | [], _ => by rw [overwriteFields]
  | (key, value) :: rest, h => by
    simp only [clearFields, Bool.and_eq_true, Bool.not_eq_true'] at h
    obtain ⟨⟨hkey, hvalue⟩, hrest⟩ := h
    simp only [overwriteFields, hkey, Bool.false_eq_true, if_false,
      overwrite_of_clear filler hvalue, overwriteFields_of_clear filler hrest]

end

mutual

/-- Whether a value is clear can be read off the filled value. -/
theorem clear_overwrite (filler : Json) : ∀ value : Json,
    clear (overwrite filler value) = clear value
  | .array items => by rw [overwrite, clear, clear, clearItems_overwriteItems]
  | .object fields => by rw [overwrite, clear, clear, clearFields_overwriteFields]
  | .null | .bool _ | .number _ | .string _ => by rw [overwrite]

theorem clearItems_overwriteItems (filler : Json) : ∀ items : List Json,
    clearItems (overwriteItems filler items) = clearItems items
  | [] => by rw [overwriteItems]
  | item :: rest => by
    rw [overwriteItems, clearItems, clearItems, clear_overwrite filler item,
      clearItems_overwriteItems filler rest]

theorem clearFields_overwriteFields (filler : Json) : ∀ fields : List (String × Json),
    clearFields (overwriteFields filler fields) = clearFields fields
  | [] => by rw [overwriteFields]
  | (key, value) :: rest => by
    by_cases hkey : sensitive key
    · simp [overwriteFields, clearFields, hkey]
    · simp [overwriteFields, clearFields, hkey, clear_overwrite filler value,
        clearFields_overwriteFields filler rest]

end

/-- Clear values that agree are equal. -/
theorem eq_of_overwrite_eq {a b : Json} (ha : clear a = true)
    (h : overwrite .null a = overwrite .null b) : a = b := by
  have hb : clear b = true := by rw [← clear_overwrite .null b, ← h, clear_overwrite, ha]
  rwa [overwrite_of_clear .null ha, overwrite_of_clear .null hb] at h

theorem Agree.eq_of_clear {m m' : List (String × Json)} (h : Agree m m')
    (hclear : clearFields m = true) : m = m' := by
  have hobject : Json.object m = .object m' := by
    refine eq_of_overwrite_eq (by rwa [clear]) ?_
    rw [overwrite, overwrite, h]
  injection hobject

/-- `redact` hides the difference of maps that agree, as long as it reaches it. -/
theorem Agree.redact_eq {m m' : List (String × Json)} (h : Agree m m')
    (hshallow : shallow m = true) : redact m = redact m' := by
  unfold Agree at h
  induction m generalizing m' with
  | nil => cases m' with
    | nil => rfl
    | cons _ _ => simp [overwriteFields] at h
  | cons head rest ih =>
    obtain ⟨key, value⟩ := head
    cases m' with
    | nil => simp [overwriteFields] at h
    | cons head' rest' =>
      obtain ⟨key', value'⟩ := head'
      simp only [overwriteFields, List.cons.injEq, Prod.mk.injEq] at h
      obtain ⟨⟨rfl, hvalue⟩, hrest⟩ := h
      simp only [shallow, List.all_cons, Bool.and_eq_true] at hshallow
      have hih := ih hrest hshallow.2
      simp only [redact, List.map_cons] at hih ⊢
      rw [hih]
      by_cases hkey : sensitive key
      · rw [if_pos hkey, if_pos hkey]
      · simp only [hkey, Bool.false_eq_true, if_false, Bool.false_or] at hvalue hshallow ⊢
        rw [eq_of_overwrite_eq hshallow.1 hvalue]

/-! ## A filler under a redacted key shows in the text -/

mutual

theorem length_overwrite (quoting : Quoting) (filler : String) : ∀ {value : Json},
    clear value = false →
    filler.toList.length ≤ (Json.text quoting (overwrite (.string filler) value)).length
  | .array items, h => by
    rw [clear] at h
    obtain ⟨item, hitem, hlen⟩ := length_overwriteItems quoting filler h
    rw [overwrite]
    exact hlen.trans (Json.length_item_le hitem)
  | .object fields, h => by
    rw [clear] at h
    obtain ⟨key, value, hfield, hlen⟩ := length_overwriteFields quoting filler h
    rw [overwrite]
    exact hlen.trans (Json.length_field_le hfield)
  | .null, h | .bool _, h | .number _, h | .string _, h => by simp [clear] at h

theorem length_overwriteItems (quoting : Quoting) (filler : String) : ∀ {items : List Json},
    clearItems items = false → ∃ item ∈ overwriteItems (.string filler) items,
      filler.toList.length ≤ (Json.text quoting item).length
  | [], h => by simp [clearItems] at h
  | item :: rest, h => by
    rw [overwriteItems]
    simp only [clearItems, Bool.and_eq_false_iff] at h
    rcases h with hitem | hrest
    · exact ⟨_, List.mem_cons_self, length_overwrite quoting filler hitem⟩
    · obtain ⟨other, hmem, hlen⟩ := length_overwriteItems quoting filler hrest
      exact ⟨other, List.mem_cons_of_mem _ hmem, hlen⟩

theorem length_overwriteFields (quoting : Quoting) (filler : String) :
    ∀ {fields : List (String × Json)}, clearFields fields = false →
    ∃ key value, (key, value) ∈ overwriteFields (.string filler) fields ∧
      filler.toList.length ≤ (Json.text quoting value).length
  | [], h => by simp [clearFields] at h
  | (key, value) :: rest, h => by
    rw [overwriteFields]
    by_cases hrest : clearFields rest = true
    · refine ⟨key, _, List.mem_cons_self, ?_⟩
      by_cases hkey : sensitive key
      · rw [if_pos hkey, Json.text]
        exact quote_length quoting filler
      · simp only [clearFields, hkey, hrest, Bool.not_false, Bool.true_and, Bool.and_true] at h
        rw [if_neg hkey]
        exact length_overwrite quoting filler h
    · rw [Bool.not_eq_true] at hrest
      obtain ⟨other, v, hmem, hlen⟩ := length_overwriteFields quoting filler hrest
      exact ⟨other, v, List.mem_cons_of_mem _ hmem, hlen⟩

end

/-- So does a filler that `redact` does not reach. -/
theorem length_redact_overwrite (quoting : Quoting) (filler : String) {m : List (String × Json)}
    (h : shallow m = false) : ∃ key value,
      (key, value) ∈ redact (overwriteFields (.string filler) m) ∧ sensitive key = false ∧
      clear value = false ∧ filler.toList.length ≤ (Json.text quoting value).length := by
  induction m with
  | nil => simp [shallow] at h
  | cons head rest ih =>
    obtain ⟨key, value⟩ := head
    rw [overwriteFields, redact, List.map_cons]
    by_cases hhead : sensitive key || clear value
    · simp only [shallow, List.all_cons, hhead, Bool.true_and] at h
      obtain ⟨other, v, hmem, hfacts⟩ := ih h
      exact ⟨other, v, List.mem_cons_of_mem _ hmem, hfacts⟩
    · simp only [Bool.or_eq_true, not_or, Bool.not_eq_true] at hhead
      refine ⟨key, overwrite (.string filler) value, ?_, hhead.1, ?_,
        length_overwrite quoting filler hhead.2⟩
      · simp [hhead.1]
      · rw [clear_overwrite, hhead.2]

end Events
end Doupro
