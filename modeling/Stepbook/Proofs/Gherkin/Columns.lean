import Mathlib.Data.List.Forall2
import Mathlib.Data.List.Sublists
import Stepbook.Proofs.Gherkin.Template
import Stepbook.Proofs.Text.Keyed

/-! # The order of columns

Columns are replaced one after another. A cell that brings in or completes the placeholder of a
later column has it replaced as well, so that the order of the columns tells. Where no cell does,
each placeholder that is written gets its cell, and the order changes nothing.

* `Template.read`: the placeholders that a text is written with.
* `occurrences`, `Settled`: no cell brings in or completes a placeholder.
* `settled_of_lacksOpening`: a case in which none does, and what follows from it for outlines,
  `expand_eq_of_lacksOpening`.
* `Table.reorder`: the same table with its columns in another order.
* `foldl_eq_filled`: columns in any order fill the placeholders that are written.
* `expand_reorder`: the scenarios of an outline, whatever the order of the columns.
-/

namespace Stepbook.Gherkin
set_option autoImplicit false

/-! ## Written placeholders -/

/-- `readFrom names skip text` still has `skip` characters of a placeholder to pass. -/
def readFrom (names : List String) : Nat → List Char → Template
  | _, [] => []
  | skip + 1, _ :: rest => readFrom names skip rest
  | 0, c :: rest =>
    match names.find? fun name => (placeholder name).isPrefixOf (c :: rest) with
    | some name => .slot name :: readFrom names ((placeholder name).length - 1) rest
    | none => .literal [c] :: readFrom names 0 rest

/-- Placeholders of the given names, from left to right; all else stands for itself. -/
def Template.read (names : List String) (text : List Char) : Template :=
  readFrom names 0 text

theorem written_cons (fragment : Fragment) (template : Template) :
    Template.written (fragment :: template) = fragment.written ++ Template.written template :=
  List.flatMap_cons

theorem written_readFrom (names : List String) (skip : Nat) (text : List Char) :
    (readFrom names skip text).written = text.drop skip := by
  induction text generalizing skip with
  | nil => simp [readFrom, Template.written]
  | cons c rest ih =>
    cases skip with
    | succ skip => simpa [readFrom] using ih skip
    | zero =>
      rw [readFrom]
      split
      · next name hfound =>
        have hstarts : (placeholder name).isPrefixOf (c :: rest) = true := by
          simpa using List.find?_some hfound
        obtain ⟨behind, hbehind⟩ := List.isPrefixOf_iff_prefix.1 hstarts
        have hrest : rest = name.toList ++ ['>'] ++ behind := (List.cons.inj hbehind).2.symm
        rw [written_cons, ih, List.drop_zero, ← hbehind, hrest]
        simp [Fragment.written, placeholder]
      · rw [written_cons, ih]
        rfl

/-- A text is written with the placeholders that are read in it. -/
theorem written_read (names : List String) (text : List Char) :
    (Template.read names text).written = text :=
  written_readFrom names 0 text

theorem name_mem_of_slot_mem {names : List String} {name : String} {skip : Nat}
    {text : List Char} (h : Fragment.slot name ∈ readFrom names skip text) : name ∈ names := by
  induction text generalizing skip with
  | nil => simp [readFrom] at h
  | cons c rest ih =>
    cases skip with
    | succ skip => exact ih h
    | zero =>
      rw [readFrom] at h
      split at h
      · next other hfound =>
        rcases List.mem_cons.1 h with heq | hlater
        · cases heq
          exact List.mem_of_find?_eq_some hfound
        · exact ih hlater
      · rcases List.mem_cons.1 h with heq | hlater
        · cases heq
        · exact ih hlater

/-! ## Occurrences -/

/-- The number of places at which a part starts in a text. -/
def occurrences (part text : List Char) : Nat :=
  text.tails.countP part.isPrefixOf

theorem occurrences_cons (part : List Char) (c : Char) (text : List Char) :
    occurrences part (c :: text) =
      occurrences part text + if part.isPrefixOf (c :: text) then 1 else 0 := by
  rw [occurrences, List.tails, List.countP_cons]
  rfl

theorem isPrefixOf_append {part text : List Char} (h : part.isPrefixOf text = true)
    (rest : List Char) : part.isPrefixOf (text ++ rest) = true := by
  rw [List.isPrefixOf_iff_prefix] at h ⊢
  exact h.trans (List.prefix_append _ _)

section
variable {part : List Char} (hpart : part ≠ []) {value : List Char}
include hpart

theorem occurrences_nil : occurrences part [] = 0 := by
  cases part with
  | nil => contradiction
  | cons c part => rfl

/-- Joining two texts may bring in occurrences, but takes none away. -/
theorem le_occurrences_append (left right : List Char) :
    occurrences part left + occurrences part right ≤ occurrences part (left ++ right) := by
  induction left with
  | nil => simp [occurrences_nil hpart]
  | cons c left ih =>
    rw [List.cons_append, occurrences_cons, occurrences_cons]
    by_cases hstarts : part.isPrefixOf (c :: left) = true
    · have happend := isPrefixOf_append hstarts right
      rw [List.cons_append] at happend
      rw [if_pos hstarts, if_pos happend]
      omega
    · rw [if_neg hstarts]
      omega

/-- An occurrence that starts in the left text ends in it, if none is brought in. -/
theorem replaceFrom_append_of_occurrences {left right : List Char}
    (h : occurrences part (left ++ right) = occurrences part left + occurrences part right)
    {skip : Nat} (hskip : skip ≤ left.length) :
    Text.replaceFrom part value skip (left ++ right) =
      Text.replaceFrom part value skip left ++ Text.replaceFrom part value 0 right := by
  induction left generalizing skip with
  | nil =>
    obtain rfl : skip = 0 := by simpa using hskip
    rfl
  | cons c left ih =>
    have hle := le_occurrences_append hpart left right
    have hboth : part.isPrefixOf (c :: (left ++ right)) = part.isPrefixOf (c :: left) ∧
        occurrences part (left ++ right) = occurrences part left + occurrences part right := by
      rw [List.cons_append, occurrences_cons, occurrences_cons] at h
      by_cases hstarts : part.isPrefixOf (c :: left) = true
      · have happend := isPrefixOf_append hstarts right
        rw [List.cons_append] at happend
        rw [if_pos hstarts, if_pos happend] at h
        exact ⟨by rw [hstarts, happend], by omega⟩
      · by_cases happend : part.isPrefixOf (c :: (left ++ right)) = true
        · rw [if_neg hstarts, if_pos happend] at h
          omega
        · rw [if_neg hstarts, if_neg happend] at h
          exact ⟨by rw [Bool.eq_false_iff.2 hstarts, Bool.eq_false_iff.2 happend], by omega⟩
    cases skip with
    | succ skip => exact ih hboth.2 (by simpa using hskip)
    | zero =>
      rw [List.cons_append, Text.replaceFrom, Text.replaceFrom, hboth.1]
      by_cases hstarts : part.isPrefixOf (c :: left) = true
      · have hlength : part.length ≤ (c :: left).length :=
          (List.isPrefixOf_iff_prefix.1 hstarts).length_le
        rw [if_pos hstarts, if_pos hstarts, ih hboth.2 (by simpa using hlength),
          List.append_assoc]
      · rw [if_neg hstarts, if_neg hstarts, ih hboth.2 (Nat.zero_le _)]
        rfl

omit hpart in
theorem replaceFrom_of_occurrences_eq_zero {text : List Char} (h : occurrences part text = 0) :
    Text.replaceFrom part value 0 text = text := by
  induction text with
  | nil => rfl
  | cons c text ih =>
    rw [occurrences_cons] at h
    by_cases hstarts : part.isPrefixOf (c :: text) = true
    · rw [if_pos hstarts] at h
      omega
    · rw [if_neg hstarts] at h
      rw [Text.replaceFrom, if_neg hstarts, ih h]

end

/-! ## One column -/

theorem placeholder_ne_nil (column : String) : placeholder column ≠ [] := nofun

theorem replaceFrom_placeholder (column : String) (value : List Char) :
    Text.replaceFrom (placeholder column) value 0 (placeholder column) = value := by
  have hself : Text.replaceFrom (placeholder column) value 0 (placeholder column ++ []) =
      value ++ Text.replaceFrom (placeholder column) value 0 [] :=
    replaceFrom_self '<' (column.toList ++ ['>']) []
  rwa [List.append_nil, Text.replaceFrom, List.append_nil] at hself

theorem count_le_occurrences (column : String) (template : Template) :
    template.count (.slot column) ≤ occurrences (placeholder column) template.written := by
  induction template with
  | nil => exact Nat.zero_le _
  | cons fragment template ih =>
    have hle := le_occurrences_append (placeholder_ne_nil column) fragment.written
      (Template.written template)
    have hfirst : (if fragment == .slot column then 1 else 0) ≤
        occurrences (placeholder column) fragment.written := by
      by_cases hslot : fragment = .slot column
      · subst hslot
        have hone : occurrences (placeholder column) (placeholder column) =
            occurrences (placeholder column) (column.toList ++ ['>']) +
              if (placeholder column).isPrefixOf (placeholder column) then 1 else 0 :=
          occurrences_cons _ _ _
        rw [if_pos (List.isPrefixOf_iff_prefix.2 (List.prefix_refl _))] at hone
        rw [if_pos (beq_self_eq_true _), Fragment.written, hone]
        exact Nat.le_add_left _ _
      · rw [beq_false_of_ne hslot, if_neg Bool.false_ne_true]
        exact Nat.zero_le _
    rw [written_cons, List.count_cons]
    omega

/-- Where a column has no other placeholders than those of the template, its replacement fills
these. -/
theorem replaceAll_written_of_count {column : String} {template : Template} (cell : String)
    (h : occurrences (placeholder column) template.written = template.count (.slot column)) :
    Text.replaceAll (placeholder column) cell.toList template.written =
      Template.written (template.map (Fragment.put column cell)) := by
  rw [Text.replaceAll]
  induction template with
  | nil => rfl
  | cons fragment template ih =>
    have hle := le_occurrences_append (placeholder_ne_nil column) fragment.written
      (Template.written template)
    have hlater := count_le_occurrences column template
    have hfirst := count_le_occurrences column [fragment]
    rw [written_cons, List.count_singleton] at hfirst
    rw [written_cons, List.count_cons] at h
    rw [Template.written, List.flatMap_nil, List.append_nil] at hfirst
    rw [List.map_cons, written_cons, written_cons,
      replaceFrom_append_of_occurrences (placeholder_ne_nil column) (by omega) (Nat.zero_le _),
      ih (by omega)]
    congr 1
    by_cases hslot : fragment = .slot column
    · subst hslot
      rw [Fragment.put, if_pos rfl]
      exact replaceFrom_placeholder column cell.toList
    · have hput : fragment.put column cell = fragment := by
        cases fragment with
        | literal chars => rfl
        | slot name => exact if_neg fun hname => hslot (congrArg Fragment.slot hname)
      rw [beq_false_of_ne hslot, if_neg Bool.false_ne_true] at h
      rw [hput, replaceFrom_of_occurrences_eq_zero (by omega)]

/-! ## All columns -/

theorem count_put {column other cell : String} (hne : column ≠ other) (template : Template) :
    (template.map (Fragment.put other cell)).count (.slot column) =
      template.count (.slot column) := by
  rw [List.count_eq_countP, List.countP_map, List.count_eq_countP]
  refine List.countP_congr fun fragment _ => ?_
  cases fragment with
  | literal chars => rfl
  | slot name =>
    simp only [Function.comp_apply, Fragment.put]
    by_cases hname : name = other
    · subst hname
      simp [hne.symm]
    · rw [if_neg hname]

/-- Columns one after another fill the placeholders of a template, if each column has no others at
its turn. -/
theorem foldl_eq_filled {cells : List (String × String)} (hdistinct : (cells.map Prod.fst).Nodup)
    {template : Template}
    (h : ∀ before column cell after, cells = before ++ (column, cell) :: after →
      occurrences (placeholder column) (template.filled before) =
        template.count (.slot column)) :
    cells.foldl (fun text (column, cell) =>
        Text.replaceAll (placeholder column) cell.toList text) template.written =
      template.filled cells := by
  induction cells generalizing template with
  | nil => exact (filled_nil template).symm
  | cons entry cells ih =>
    obtain ⟨column, cell⟩ := entry
    rw [List.map_cons, List.nodup_cons] at hdistinct
    have hfirst := h [] column cell cells rfl
    rw [filled_nil] at hfirst
    rw [List.foldl_cons]
    dsimp only
    rw [replaceAll_written_of_count cell hfirst, ih hdistinct.2, filled_put]
    intro before later value after hsplit
    have hne : later ≠ column := by
      rintro rfl
      refine hdistinct.1 ?_
      rw [hsplit, List.map_append]
      simp
    rw [filled_put, count_put hne]
    exact h ((column, cell) :: before) later value after (by rw [hsplit, List.cons_append])

theorem filled_perm {cells others : List (String × String)}
    (hdistinct : (cells.map Prod.fst).Nodup) (h : cells.Perm others) (template : Template) :
    template.filled cells = template.filled others := by
  refine List.flatMap_congr fun fragment _ => ?_
  cases fragment with
  | literal chars => rfl
  | slot name => rw [Fragment.filled, Fragment.filled, lookup_perm hdistinct h]

/-! ## Texts that hold no further placeholders -/

/-- Whichever columns have been replaced, the placeholders of each other column are those that were
written: no cell brings one in or completes one. -/
def Settled (header row : List String) (text : String) : Prop :=
  ∀ put ∈ (header.zip row).sublists, ∀ column ∈ header, column ∉ put.map Prod.fst →
    occurrences (placeholder column) ((Template.read header text.toList).filled put) =
      (Template.read header text.toList).count (.slot column)

instance (header row : List String) (text : String) : Decidable (Settled header row text) :=
  inferInstanceAs (Decidable (∀ put ∈ _, ∀ column ∈ header, _ → _))

/-- Columns in any order fill the placeholders that are written. -/
theorem toList_substitute_of_settled {header row others cells : List String} {text : String}
    (hdistinct : header.Nodup) (hlength : row.length = header.length)
    (hsettled : Settled header row text) (h : (header.zip row).Perm (others.zip cells)) :
    (substitute others cells text).toList =
      (Template.read header text.toList).filled (header.zip row) := by
  have hnames : (header.zip row).map Prod.fst = header := List.map_fst_zip hlength.ge
  have hrow : ((header.zip row).map Prod.fst).Nodup := by rwa [hnames]
  have hothers : ((others.zip cells).map Prod.fst).Nodup := (h.map Prod.fst).nodup_iff.1 hrow
  rw [substitute, String.toList_ofList, filled_perm hrow h]
  conv_lhs => rw [← written_read header text.toList]
  refine foldl_eq_filled hothers fun before column cell after hsplit => ?_
  have hnodup := hothers
  rw [hsplit, List.map_append, List.map_cons, List.nodup_append] at hnodup
  have hbefore : before.Subperm (header.zip row) := by
    refine List.Subperm.trans ?_ h.symm.subperm
    rw [hsplit]
    exact (List.sublist_append_left before _).subperm
  obtain ⟨put, hput, hsublist⟩ := hbefore
  have hcolumn : column ∈ header := by
    rw [← hnames, (h.map Prod.fst).mem_iff, hsplit, List.map_append]
    simp
  have hfresh : column ∉ put.map Prod.fst := by
    rw [(hput.map Prod.fst).mem_iff]
    exact fun hmem => hnodup.2.2 column hmem column (List.mem_cons_self ..) rfl
  rw [← filled_perm ((hput.map Prod.fst).nodup_iff.2 hnodup.1) hput]
  exact hsettled put (List.mem_sublists.2 hsublist) column hcolumn hfresh

/-! ## Texts without other opening brackets -/

section
variable {column name : String}

theorem occurrences_append_of_lacks {left : List Char} (h : '<' ∉ left) (right : List Char) :
    occurrences (placeholder column) (left ++ right) =
      occurrences (placeholder column) right := by
  induction left with
  | nil => rfl
  | cons c left ih =>
    simp only [List.mem_cons, not_or] at h
    have hother : (placeholder column).isPrefixOf (c :: (left ++ right)) = false := by
      rw [placeholder, List.cons_append, List.isPrefixOf, beq_false_of_ne h.1, Bool.false_and]
    rw [List.cons_append, occurrences_cons, hother, ih h.2]
    simp

theorem occurrences_placeholder_append (hcolumn : Unbracketed column.toList)
    (hname : Unbracketed name.toList) (rest : List Char) :
    occurrences (placeholder column) (placeholder name ++ rest) =
      occurrences (placeholder column) rest + if name = column then 1 else 0 := by
  have hbehind : '<' ∉ name.toList ++ ['>'] := by
    simp only [List.mem_append, List.mem_singleton, not_or]
    exact ⟨hname.1, by decide⟩
  have hstarts : (placeholder column).isPrefixOf (placeholder name ++ rest) = true ↔
      name = column := by
    rw [List.isPrefixOf_iff_prefix]
    constructor
    · rintro ⟨more, hmore⟩
      simp only [placeholder, List.cons_append, List.append_assoc, List.nil_append,
        List.cons.injEq, true_and] at hmore
      exact String.toList_inj.1 (name_eq_of_append hcolumn.2 hname.2 hmore).symm
    · rintro rfl
      exact List.prefix_append _ _
  have hcons : placeholder name ++ rest = '<' :: (name.toList ++ ['>'] ++ rest) := rfl
  rw [hcons] at hstarts ⊢
  rw [occurrences_cons, occurrences_append_of_lacks hbehind]
  simp only [hstarts]

end

/-- No cell brings in or completes a placeholder where no opening bracket stands in a cell or beside
the placeholders of the text. -/
theorem settled_of_lacksOpening {header row : List String} {text : String}
    (hnames : ∀ column ∈ header, Unbracketed column.toList)
    (hcells : ∀ cell ∈ row, '<' ∉ cell.toList)
    (htext : ∀ chars, .literal chars ∈ Template.read header text.toList → '<' ∉ chars) :
    Settled header row text := by
  intro put hput column hcolumn hfresh
  have hput : put.Sublist (header.zip row) := List.mem_sublists.1 hput
  have hslots : ∀ name, .slot name ∈ Template.read header text.toList → name ∈ header :=
    fun name hname => name_mem_of_slot_mem hname
  generalize Template.read header text.toList = template at htext hslots ⊢
  induction template with
  | nil => rfl
  | cons fragment template ih =>
    have hlater := ih (fun chars hchars => htext chars (List.mem_cons_of_mem _ hchars))
      fun name hname => hslots name (List.mem_cons_of_mem _ hname)
    rw [Template.filled, List.flatMap_cons, ← Template.filled, List.count_cons]
    cases fragment with
    | literal chars =>
      rw [Fragment.filled, occurrences_append_of_lacks (htext chars (List.mem_cons_self ..)),
        hlater]
      rfl
    | slot name =>
      have hname := hnames name (hslots name (List.mem_cons_self ..))
      rw [Fragment.filled]
      cases hlookup : put.lookup name with
      | none =>
        dsimp only
        rw [occurrences_placeholder_append (hnames column hcolumn) hname, hlater]
        simp
      | some cell =>
        have hmem : (name, cell) ∈ put := by
          obtain ⟨before, after, rfl, -⟩ := List.lookup_eq_some_iff.1 hlookup
          simp
        have hcell : '<' ∉ cell.toList :=
          hcells cell (List.of_mem_zip (hput.subset hmem)).2
        have hne : name ≠ column := by
          rintro rfl
          exact hfresh (List.mem_map.2 ⟨_, hmem, rfl⟩)
        dsimp only
        rw [occurrences_append_of_lacks hcell, hlater]
        simp [hne]

/-! ## Columns in another order -/

/-- The items at the given places. -/
def pick {α : Type} (order : List Nat) (items : List α) : List α :=
  order.filterMap (items[·]?)

/-- The same columns in another order, in the header and in all rows. -/
def Table.reorder (order : List Nat) (table : Table) : Table :=
  ⟨pick order table.header, table.rows.map (pick order)⟩

def Reorders (table other : Table) : Prop :=
  ∃ order : List Nat, order.Perm (List.range table.header.length) ∧ other = table.reorder order

section
variable {α β : Type}

theorem zip_pick (order : List Nat) {items : List α} {others : List β}
    (h : others.length = items.length) :
    (pick order items).zip (pick order others) = pick order (items.zip others) := by
  induction order with
  | nil => rfl
  | cons index order ih =>
    unfold pick at ih ⊢
    simp only [List.filterMap_cons]
    by_cases hindex : index < items.length
    · have hother : index < others.length := h ▸ hindex
      have hzip : index < (items.zip others).length := by
        rw [List.length_zip]
        omega
      rw [List.getElem?_eq_getElem hindex, List.getElem?_eq_getElem hother,
        List.getElem?_eq_getElem hzip, List.getElem_zip]
      exact congrArg _ ih
    · rw [List.getElem?_eq_none (by omega), List.getElem?_eq_none (by omega),
        List.getElem?_eq_none (by rw [List.length_zip]; omega)]
      exact ih

theorem pick_range (items : List α) : pick (List.range items.length) items = items := by
  unfold pick
  induction items using List.reverseRecOn with
  | nil => rfl
  | append_singleton items item ih =>
    have hearlier : (List.range items.length).filterMap ((items ++ [item])[·]?) =
        (List.range items.length).filterMap (items[·]?) := by
      refine List.filterMap_congr fun index hindex => ?_
      rw [List.getElem?_append_left (List.mem_range.1 hindex)]
    rw [List.length_append, List.length_singleton, List.range_succ, List.filterMap_append,
      hearlier, ih, List.filterMap_cons, List.getElem?_concat_length]
    rfl

theorem perm_pick {order : List Nat} {items : List α}
    (h : order.Perm (List.range items.length)) : (pick order items).Perm items := by
  have hpick : (pick order items).Perm (pick (List.range items.length) items) := h.filterMap _
  rwa [pick_range] at hpick

theorem mapIdx_eq_of_forall₂ {γ : Type} {rel : α → β → Prop} {f : Nat → α → γ} {g : Nat → β → γ}
    (h : ∀ index item other, rel item other → f index item = g index other)
    {items : List α} {others : List β} (hrel : List.Forall₂ rel items others) :
    items.mapIdx f = others.mapIdx g := by
  induction hrel generalizing f g with
  | nil => rfl
  | cons hfirst _ ih =>
    rw [List.mapIdx_cons, List.mapIdx_cons, h 0 _ _ hfirst,
      ih fun index item other hitem => h (index + 1) item other hitem]

end

/-- The texts of an outline in which placeholders are replaced: its name, and those of all steps. -/
def Outline.texts (outline : Outline) (background : List Step) : List String :=
  outline.name :: (background ++ outline.steps).map (·.text)

/-- A table with distinct columns and full rows, none of whose cells brings in or completes a
placeholder in one of the texts. -/
structure Table.Plain (table : Table) (texts : List String) : Prop where
  distinct : table.header.Nodup
  full : ∀ row ∈ table.rows, row.length = table.header.length
  settled : ∀ row ∈ table.rows, ∀ text ∈ texts, Settled table.header row text

theorem Table.Plain.substitute_pick {table : Table} {texts : List String}
    (h : table.Plain texts) {order : List Nat}
    (horder : order.Perm (List.range table.header.length)) {row : List String}
    (hrow : row ∈ table.rows) {text : String} (htext : text ∈ texts) :
    substitute (pick order table.header) (pick order row) text =
      substitute table.header row text := by
  have hfull := h.full row hrow
  have hsettled := h.settled row hrow text htext
  have hcells : ((table.header.zip row).length : Nat) = table.header.length := by
    rw [List.length_zip, hfull, Nat.min_self]
  have hperm : (table.header.zip row).Perm ((pick order table.header).zip (pick order row)) := by
    rw [zip_pick order hfull]
    exact (perm_pick (hcells ▸ horder)).symm
  refine String.toList_inj.1 ?_
  rw [toList_substitute_of_settled h.distinct hfull hsettled hperm,
    toList_substitute_of_settled h.distinct hfull hsettled (.refl _)]

/-- The first row makes the same texts as the second one. -/
def SameTexts (texts : List String) (first second : List String × List String) : Prop :=
  ∀ text ∈ texts, substitute first.1 first.2 text = substitute second.1 second.2 text

theorem sameTexts_rows {table other : Table} {texts : List String} (h : table.Plain texts)
    (hother : Reorders table other) :
    List.Forall₂ (SameTexts texts) (other.rows.map (other.header, ·))
      (table.rows.map (table.header, ·)) := by
  obtain ⟨order, horder, rfl⟩ := hother
  rw [Table.reorder, List.map_map, List.forall₂_map_left_iff, List.forall₂_map_right_iff,
    List.forall₂_same]
  exact fun row hrow text htext => h.substitute_pick horder hrow htext

theorem instantiate_eq_of_sameTexts {outline : Outline} {background : List Step}
    {tables : List Table} {first second : List String × List String}
    (h : SameTexts (outline.texts background) first second) (number : Nat) :
    Outline.instantiate { outline with tables := tables } background first.1 first.2 number =
      outline.instantiate background second.1 second.2 number := by
  have hsteps : (background ++ outline.steps).map (Step.substitute first.1 first.2) =
      (background ++ outline.steps).map (Step.substitute second.1 second.2) := by
    refine List.map_congr_left fun step hstep => ?_
    rw [Step.substitute, Step.substitute,
      h _ (List.mem_cons_of_mem _ (List.mem_map.2 ⟨step, hstep, rfl⟩))]
  rw [Outline.instantiate, Outline.instantiate, hsteps, h _ (List.mem_cons_self ..)]

theorem expand_eq_of_plain {outline : Outline} {background : List Step} {tables : List Table}
    (hplain : ∀ table ∈ outline.tables, table.Plain (outline.texts background))
    (hreorders : List.Forall₂ Reorders outline.tables tables) :
    { outline with tables := tables }.expand background = outline.expand background := by
  have hboth := (List.forall₂_and_left _ _).2 ⟨hplain, hreorders⟩
  have hexamples : List.Forall₂ (SameTexts (outline.texts background))
      (Outline.examples { outline with tables := tables }) outline.examples := by
    refine List.rel_flatMap hboth.flip ?_
    rintro other table ⟨htable, hother⟩
    exact sameTexts_rows htable hother
  have hempty : tables.isEmpty = outline.tables.isEmpty := by
    rw [Bool.eq_iff_iff, List.isEmpty_iff_length_eq_zero, List.isEmpty_iff_length_eq_zero,
      hreorders.length_eq]
  by_cases htables : outline.tables.isEmpty = true
  · rw [Outline.expand, Outline.expand, if_pos (hempty.trans htables), if_pos htables]
  · rw [Outline.expand, Outline.expand, if_neg htables, if_neg (hempty ▸ htables)]
    refine mapIdx_eq_of_forall₂ ?_ hexamples
    intro index first second hsame
    exact instantiate_eq_of_sameTexts hsame (index + 1)

/-- The only opening brackets are those of the placeholders that are written. -/
structure Table.LacksOpening (table : Table) (texts : List String) : Prop where
  distinct : table.header.Nodup
  full : ∀ row ∈ table.rows, row.length = table.header.length
  names : ∀ column ∈ table.header, Unbracketed column.toList
  cells : ∀ row ∈ table.rows, ∀ cell ∈ row, '<' ∉ cell.toList
  literals : ∀ text ∈ texts, ∀ chars,
    .literal chars ∈ Template.read table.header text.toList → '<' ∉ chars

theorem Table.LacksOpening.plain {table : Table} {texts : List String}
    (h : table.LacksOpening texts) : table.Plain texts where
  distinct := h.distinct
  full := h.full
  settled := fun row hrow text htext =>
    settled_of_lacksOpening h.names (h.cells row hrow) (h.literals text htext)

/-- For such tables, no cell has to be compared with a text. -/
theorem expand_eq_of_lacksOpening {outline : Outline} {background : List Step}
    {tables : List Table}
    (hlacks : ∀ table ∈ outline.tables, table.LacksOpening (outline.texts background))
    (hreorders : List.Forall₂ Reorders outline.tables tables) :
    { outline with tables := tables }.expand background = outline.expand background :=
  expand_eq_of_plain (fun table htable => (hlacks table htable).plain) hreorders

/-- Where no cell brings in or completes a placeholder, the columns of each table may stand in any
order: the scenarios are the same, and each placeholder that is written has got its cell. -/
theorem expand_reorder {outline : Outline} {background : List Step} {tables : List Table}
    (hplain : ∀ table ∈ outline.tables, table.Plain (outline.texts background))
    (hreorders : List.Forall₂ Reorders outline.tables tables) :
    { outline with tables := tables }.expand background = outline.expand background ∧
      ∀ table ∈ outline.tables, ∀ row ∈ table.rows, ∀ text ∈ outline.texts background,
        (substitute table.header row text).toList =
          (Template.read table.header text.toList).filled (table.header.zip row) := by
  refine ⟨expand_eq_of_plain hplain hreorders, fun table htable row hrow text htext => ?_⟩
  have hfull := (hplain table htable).full row hrow
  exact toList_substitute_of_settled (hplain table htable).distinct hfull
    ((hplain table htable).settled row hrow text htext) (.refl _)

/-- Brackets in texts and cells, none of which makes a placeholder. -/
def shelves : Outline :=
  ⟨"<item> on <shelf>", [⟨.outcome, "I see <item> <on> <shelf>"⟩],
    [⟨["item", "shelf"], [["<pear>", "top"], ["a < b", "<item"]]⟩]⟩

theorem expand_reorder_shelves :
    (∀ table ∈ shelves.tables, table.Plain (shelves.texts [])) ∧
      List.Forall₂ Reorders shelves.tables
        [⟨["shelf", "item"], [["top", "<pear>"], ["<item", "a < b"]]⟩] ∧
      Outline.expand { shelves with
          tables := [⟨["shelf", "item"], [["top", "<pear>"], ["<item", "a < b"]]⟩] } [] =
        shelves.expand [] := by
  have hplain : ∀ table ∈ shelves.tables, table.Plain (shelves.texts []) :=
    List.forall_mem_singleton.2 ⟨by decide, by decide, by decide +kernel⟩
  have hreorders : List.Forall₂ Reorders shelves.tables
      [⟨["shelf", "item"], [["top", "<pear>"], ["<item", "a < b"]]⟩] :=
    .cons ⟨[1, 0], by decide, rfl⟩ .nil
  exact ⟨hplain, hreorders, (expand_reorder hplain hreorders).1⟩

/-- A cell that names a later column is replaced by the cell of that column, and stays as it is if
the column stands before its own. -/
theorem expand_cell_naming_column :
    Reorders ⟨["a", "b"], [["<b>", "x"]]⟩ ⟨["b", "a"], [["x", "<b>"]]⟩ ∧
      Outline.expand ⟨"<a>", [⟨.context, "<a>"⟩], [⟨["a", "b"], [["<b>", "x"]]⟩]⟩ [] =
        [⟨"x (example 1)", [⟨.context, "x"⟩]⟩] ∧
      Outline.expand ⟨"<a>", [⟨.context, "<a>"⟩], [⟨["b", "a"], [["x", "<b>"]]⟩]⟩ [] =
        [⟨"<b> (example 1)", [⟨.context, "<b>"⟩]⟩] :=
  ⟨⟨[1, 0], by decide, rfl⟩, by decide, by decide⟩

end Stepbook.Gherkin
