import Mathlib.Data.List.Basic
import Mathlib.Data.List.Induction
import PhraseStructure.Rule

/-!
# Grouping by keys

A list of keys with values is grouped when every key stands once, at the place of its first
occurrence, with all its values, of equal values the first.  `grouped` computes this from the
whole list at once.  An entry at the end adds its values to the group of its key, or is a new
group behind the others.

Grouping does not depend on what keys and values are, only on which of them are equal, and it
does not see repetitions inside an entry.  It does depend on the order of the entries.
-/

namespace PhraseStructure

/-! ### First occurrences -/

section FirstOccurrences

variable {α β : Type} [BEq α] [LawfulBEq α] [BEq β] [LawfulBEq β]

theorem eraseDups_eq_self {items : List α} (h : items.Nodup) : items.eraseDups = items := by
  induction items with
  | nil => rfl
  | cons item items ih =>
      obtain ⟨hnot, hnodup⟩ := List.nodup_cons.mp h
      have hfilter : (items.filter fun other => !other == item) = items := by
        rw [List.filter_eq_self]
        intro other hother
        have hne : other ≠ item := by
          rintro rfl
          exact hnot hother
        simp [hne]
      rw [List.eraseDups_cons, hfilter, ih hnodup]

theorem eraseDups_concat_of_mem {items : List α} {item : α} (h : item ∈ items) :
    (items ++ [item]).eraseDups = items.eraseDups := by
  simp [List.eraseDups_append, List.removeAll, h]

theorem eraseDups_concat_of_not_mem {items : List α} {item : α} (h : item ∉ items) :
    (items ++ [item]).eraseDups = items.eraseDups ++ [item] := by
  simp [List.eraseDups_append, List.removeAll, h, List.eraseDups_cons]

/-- Repetitions may be dropped on the way. -/
theorem eraseDups_eraseDups_append (items more : List α) :
    (items.eraseDups ++ more).eraseDups = (items ++ more).eraseDups := by
  have hmore : more.removeAll items.eraseDups = more.removeAll items := by
    simp [List.removeAll, List.mem_eraseDups]
  rw [List.eraseDups_append, List.eraseDups_append, hmore,
    eraseDups_eq_self (nodup_eraseDups items)]

theorem filter_eraseDups (p : α → Bool) (items : List α) :
    items.eraseDups.filter p = (items.filter p).eraseDups := by
  induction items using List.reverseRecOn with
  | nil => rfl
  | append_singleton items item ih =>
      by_cases hmem : item ∈ items
      · rw [eraseDups_concat_of_mem hmem, ih, List.filter_append]
        cases hp : p item with
        | true =>
            rw [List.filter_cons_of_pos hp, List.filter_nil,
              eraseDups_concat_of_mem (List.mem_filter.mpr ⟨hmem, hp⟩)]
        | false => simp [hp]
      · rw [eraseDups_concat_of_not_mem hmem, List.filter_append, ih, List.filter_append]
        cases hp : p item with
        | true =>
            rw [List.filter_cons_of_pos hp, List.filter_nil,
              eraseDups_concat_of_not_mem fun h => hmem (List.mem_filter.mp h).1]
        | false => simp [hp]

theorem eraseDups_append_eraseDups (items more : List α) :
    (items ++ more.eraseDups).eraseDups = (items ++ more).eraseDups := by
  rw [List.eraseDups_append, List.eraseDups_append, List.removeAll, filter_eraseDups,
    eraseDups_eq_self (nodup_eraseDups _), List.removeAll]

theorem map_eraseDups {f : α → β} (hf : Function.Injective f) (items : List α) :
    items.eraseDups.map f = (items.map f).eraseDups := by
  induction items using List.reverseRecOn with
  | nil => rfl
  | append_singleton items item ih =>
      rw [List.map_append, List.map_singleton]
      by_cases hmem : item ∈ items
      · rw [eraseDups_concat_of_mem hmem, eraseDups_concat_of_mem (List.mem_map_of_mem hmem), ih]
      · have hmem' : f item ∉ items.map f := by
          rwa [List.mem_map_of_injective hf]
        rw [eraseDups_concat_of_not_mem hmem, eraseDups_concat_of_not_mem hmem', List.map_append,
          ih, List.map_singleton]

end FirstOccurrences

/-! ### Groups -/

section Groups

variable {α β : Type} [BEq α] [BEq β]

/-- The values of all entries for a key, in order; of equal values the first is kept. -/
def valuesFor (entries : List (α × List β)) (key : α) : List β :=
  ((entries.filter fun entry => entry.1 == key).flatMap Prod.snd).eraseDups

/-- One entry per key, in order of first occurrence, with the values of all entries for that
key. -/
def grouped (entries : List (α × List β)) : List (α × List β) :=
  (entries.map Prod.fst).eraseDups.map fun key => (key, valuesFor entries key)

/-- Values for a key are added to the group of that key and to no other. -/
def addTo (key : α) (values : List β) (group : α × List β) : α × List β :=
  if group.1 == key then (group.1, (group.2 ++ values).eraseDups) else group

theorem map_fst_grouped (entries : List (α × List β)) :
    (grouped entries).map Prod.fst = (entries.map Prod.fst).eraseDups := by
  rw [grouped, List.map_map]
  exact List.map_id _

variable [LawfulBEq α]

theorem addTo_self (key : α) (values known : List β) :
    addTo key values (key, known) = (key, (known ++ values).eraseDups) := by
  simp [addTo]

theorem addTo_of_ne {key : α} {group : α × List β} (h : group.1 ≠ key) (values : List β) :
    addTo key values group = group := by
  simp [addTo, h]

theorem valuesFor_concat_of_ne {entries : List (α × List β)} {key other : α} (h : key ≠ other)
    (values : List β) : valuesFor (entries ++ [(key, values)]) other = valuesFor entries other := by
  simp [valuesFor, h]

theorem valuesFor_of_not_mem {entries : List (α × List β)} {key : α}
    (h : key ∉ entries.map Prod.fst) : valuesFor entries key = [] := by
  have hnone : (entries.filter fun entry => entry.1 == key) = [] := by
    rw [List.filter_eq_nil_iff]
    intro entry hentry heq
    exact h (beq_iff_eq.mp heq ▸ List.mem_map_of_mem hentry)
  rw [valuesFor, hnone]
  rfl

variable [LawfulBEq β]

theorem valuesFor_concat_self (entries : List (α × List β)) (key : α) (values : List β) :
    valuesFor (entries ++ [(key, values)]) key = (valuesFor entries key ++ values).eraseDups := by
  simp [valuesFor, eraseDups_eraseDups_append]

/-- An entry for a new key is a group of its own behind the others. -/
theorem grouped_concat_of_not_mem {entries : List (α × List β)} {key : α}
    (h : key ∉ entries.map Prod.fst) (values : List β) :
    grouped (entries ++ [(key, values)]) = grouped entries ++ [(key, values.eraseDups)] := by
  have hself : valuesFor (entries ++ [(key, values)]) key = values.eraseDups := by
    rw [valuesFor_concat_self, valuesFor_of_not_mem h, List.nil_append]
  have hothers : ∀ other ∈ (entries.map Prod.fst).eraseDups,
      (other, valuesFor (entries ++ [(key, values)]) other) = (other, valuesFor entries other) := by
    intro other hother
    have hne : key ≠ other := by
      rintro rfl
      exact h (List.mem_eraseDups.mp hother)
    rw [valuesFor_concat_of_ne hne]
  rw [grouped, List.map_append, List.map_singleton, eraseDups_concat_of_not_mem h,
    List.map_append, List.map_singleton, hself, List.map_congr_left hothers]
  rfl

/-- An entry for a known key adds values to the group of that key. -/
theorem grouped_concat_of_mem {entries : List (α × List β)} {key : α}
    (h : key ∈ entries.map Prod.fst) (values : List β) :
    grouped (entries ++ [(key, values)]) = (grouped entries).map (addTo key values) := by
  rw [grouped, List.map_append, List.map_singleton, eraseDups_concat_of_mem h, grouped,
    List.map_map]
  refine List.map_congr_left fun other _ => ?_
  show _ = addTo key values (other, valuesFor entries other)
  by_cases hother : other = key
  · rw [hother, valuesFor_concat_self, addTo_self]
  · rw [valuesFor_concat_of_ne (Ne.symm hother), addTo_of_ne hother]

/-- Repetitions inside an entry do not matter. -/
theorem grouped_map_eraseDups (entries : List (α × List β)) :
    grouped (entries.map (Prod.map id List.eraseDups)) = grouped entries := by
  have hvalues : ∀ key, valuesFor (entries.map (Prod.map id List.eraseDups)) key =
      valuesFor entries key := by
    intro key
    induction entries using List.reverseRecOn with
    | nil => rfl
    | append_singleton entries entry ih =>
        obtain ⟨other, values⟩ := entry
        rw [List.map_append]
        show valuesFor (_ ++ [(other, values.eraseDups)]) key = _
        by_cases hother : other = key
        · rw [hother, valuesFor_concat_self, valuesFor_concat_self, ih,
            eraseDups_append_eraseDups]
        · rw [valuesFor_concat_of_ne hother, valuesFor_concat_of_ne hother, ih]
  rw [grouped, List.map_map]
  show (entries.map Prod.fst).eraseDups.map _ = _
  simp only [hvalues, grouped]

/-- Keys and values may be renamed, if different ones keep different names. -/
theorem grouped_map {γ δ : Type} [BEq γ] [LawfulBEq γ] [BEq δ] [LawfulBEq δ] {f : α → γ}
    {g : β → δ} (hf : Function.Injective f) (hg : Function.Injective g)
    (entries : List (α × List β)) :
    grouped (entries.map (Prod.map f (List.map g))) =
      (grouped entries).map (Prod.map f (List.map g)) := by
  have hvalues : ∀ key, valuesFor (entries.map (Prod.map f (List.map g))) (f key) =
      (valuesFor entries key).map g := by
    intro key
    induction entries using List.reverseRecOn with
    | nil => rfl
    | append_singleton entries entry ih =>
        obtain ⟨other, values⟩ := entry
        rw [List.map_append]
        show valuesFor (_ ++ [(f other, values.map g)]) (f key) = _
        by_cases hother : other = key
        · rw [hother, valuesFor_concat_self, valuesFor_concat_self, ih, map_eraseDups hg,
            List.map_append]
        · rw [valuesFor_concat_of_ne (hf.ne hother), valuesFor_concat_of_ne hother, ih]
  rw [grouped, List.map_map]
  show (entries.map (f ∘ Prod.fst)).eraseDups.map _ = _
  rw [← List.map_map, ← map_eraseDups hf, List.map_map, grouped, List.map_map]
  refine List.map_congr_left fun key _ => ?_
  exact congrArg (Prod.mk (f key)) (hvalues key)

end Groups
end PhraseStructure
