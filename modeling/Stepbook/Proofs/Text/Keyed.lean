import Mathlib.Data.List.Nodup

/-! # Lists of named values

* `lookup_eq_some_iff_mem`: under distinct names, a value is found if it is there.
* `lookup_perm`: the order of the values does not matter.
* `lookup_filter`: values of other names do not matter.
-/

namespace Stepbook
set_option autoImplicit false

section
variable {α : Type} {entries : List (String × α)} (distinct : (entries.map Prod.fst).Nodup)
include distinct

theorem lookup_eq_some_iff_mem {name : String} {value : α} :
    entries.lookup name = some value ↔ (name, value) ∈ entries := by
  induction entries with
  | nil => simp
  | cons entry entries ih =>
    obtain ⟨other, first⟩ := entry
    rw [List.map_cons, List.nodup_cons] at distinct
    rw [List.lookup_cons, List.mem_cons]
    by_cases hname : name = other
    · subst hname
      have hnot : (name, value) ∉ entries := fun hmem =>
        distinct.1 (List.mem_map.2 ⟨_, hmem, rfl⟩)
      simp [hnot, eq_comm]
    · rw [beq_false_of_ne hname]
      simp [hname, ih distinct.2]

theorem lookup_perm {others : List (String × α)} (h : entries.Perm others) (name : String) :
    entries.lookup name = others.lookup name := by
  have hothers : (others.map Prod.fst).Nodup := (h.map Prod.fst).nodup_iff.1 distinct
  refine Option.ext fun value => ?_
  rw [lookup_eq_some_iff_mem distinct, lookup_eq_some_iff_mem hothers, h.mem_iff]

end

theorem lookup_filter {α : Type} {p : String → Bool} {name : String} (h : p name = true)
    (entries : List (String × α)) :
    (entries.filter fun entry => p entry.1).lookup name = entries.lookup name := by
  induction entries with
  | nil => rfl
  | cons entry entries ih =>
    obtain ⟨other, value⟩ := entry
    rw [List.filter_cons, List.lookup_cons]
    by_cases hname : name = other
    · subst hname
      simp [h]
    · rw [beq_false_of_ne hname, ← ih]
      split
      · rw [List.lookup_cons, beq_false_of_ne hname]
      · rfl

end Stepbook
