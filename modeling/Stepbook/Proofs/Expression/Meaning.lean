import Stepbook.Proofs.Expression.Groups
import Stepbook.Proofs.Expression.Tokens

/-! # The meaning of a compiled expression

A compiled expression matches the texts that split into pieces of its tokens, and captures the
pieces of its placeholders in the preferred split.

* `solid_of_mem_tokens`: no optional text of an expression is empty.
* `search_regex`: a search finds the preferred split.
* `captures?_regex`: the captures of that split.
* `match_eq_splits`: what a compiled expression matches.
-/

namespace Stepbook.Expression
set_option autoImplicit false

open Regex

/-! ## Tokens of an expression -/

/-- No optional text of an expression is empty. -/
theorem solid_of_mem_tokens {expression : List Char} {read : List Token}
    (h : tokens expression = .ok read) : ∀ token ∈ read, token.Solid := fun token htoken =>
  (regular_of_mem_tokens h token htoken).solid

theorem areLoose_runs {tokens : List Token} (h : ∀ token ∈ tokens, token.Solid) :
    AreLoose (runs tokens).1 ∧ ∀ other ∈ (runs tokens).2, AreLoose other.2 := by
  have hruns := areRuns_runs tokens
  have hunite := unite_runs tokens
  unfold unite at hunite
  rw [← hunite] at h
  refine ⟨fun token htoken => ⟨h token ?_, hruns.1 token htoken⟩,
    fun other hother token htoken => ⟨h token ?_, (hruns.2 other hother).2 token htoken⟩⟩
  · exact List.mem_append_left _ htoken
  · exact List.mem_append_right _
      (List.mem_flatMap.2 ⟨other, hother, List.mem_cons_of_mem _ htoken⟩)

/-! ## Searching -/

theorem before_within_ne_none {text : List Char} {offset : Nat} (hpos : 0 < offset)
    (hle : offset ≤ text.length) : (Place.within text offset).before ≠ none := by
  unfold Place.within
  rw [ne_eq, List.getLast?_eq_none_iff]
  intro hnil
  have hlength := congrArg List.length hnil
  rw [List.length_take, List.length_nil] at hlength
  omega

/-- Where matches begin at the start of a text only. -/
theorem flatMap_starts {body : Cursor → List Cursor}
    (h : ∀ cursor, cursor.place.before ≠ none → body cursor = []) (text : List Char) :
    (starts text 0).flatMap body = body (.start text) := by
  have hstart : Cursor.within text 0 = .start text := by
    simp [Cursor.start, Cursor.within, Place.start, Place.within]
  have hlater : (starts text 1).flatMap body = [] := by
    refine List.flatMap_eq_nil_iff.2 fun cursor hcursor => ?_
    obtain ⟨offset, hoffset, rfl⟩ := List.mem_map.1 hcursor
    rw [List.mem_range'_1] at hoffset
    exact h _ (before_within_ne_none (by omega) (by omega))
  have hcons : starts text 0 = .within text 0 :: starts text 1 := by
    rw [starts, starts, Nat.sub_zero, Nat.add_sub_cancel, List.range'_succ]
    rfl
  rw [hcons, List.flatMap_cons, hlater, List.append_nil, hstart]

theorem ends_regex (parts : List Part) (cursor : Cursor) :
    (Part.regex parts).ends cursor =
      if cursor.place.before.isNone then
        (endsAll (Part.regexes 0 parts) cursor).filter (·.place.rest.isEmpty)
      else [] := by
  have hlast : endsAll [.anchor .textEnd] = fun cursor : Cursor =>
      if cursor.place.rest.isEmpty then [cursor] else [] := by
    funext cursor
    rw [endsAll, ends, Cursor.meets, Place.meets, Anchor.holds]
    cases cursor.place.rest <;> rfl
  rw [Part.regex, ends_concat, endsAll_append, endsAll, hlast, ends, Cursor.meets, Place.meets,
    Anchor.holds]
  cases cursor.place.before with
  | none =>
    rw [Option.isNone_none, if_pos rfl, if_pos rfl, List.flatMap_singleton]
    induction endsAll (Part.regexes 0 parts) cursor with
    | nil => rfl
    | cons first others ih =>
      rw [List.flatMap_cons, List.filter_cons, ih]
      cases first.place.rest.isEmpty <;> rfl
  | some c => rfl

section
variable {tokens : List Token} {parts : List Part}

/-- The runs of solid tokens that make up parts. -/
theorem follows_parts (hsolid : ∀ token ∈ tokens, token.Solid)
    (h : Expression.parts tokens = .ok parts) :
    Follows 0 (Part.parameters parts) (Part.regexes 0 parts)
      (runsSplits (runs tokens).1 (runs tokens).2) := by
  have hloose := areLoose_runs hsolid
  obtain ⟨hproper, hparameters, hregexes⟩ := regexes_of_partsAfter hloose.2 h
  have hall := follows_runs ⟨hloose.1, fun other hother =>
    ⟨hproper other hother, hloose.2 other hother⟩⟩ 0
  rw [hparameters, hregexes 0, regexes_addTokens hloose.1]
  exact hall

/-- From the start of a text, the ends are those of its splits. -/
theorem ends_regex_start (hsolid : ∀ token ∈ tokens, token.Solid)
    (h : Expression.parts tokens = .ok parts) (text : List Char) :
    (Part.regex parts).ends (.start text) =
      (splits tokens text).map fun split => (Cursor.start text).through 0 split := by
  have hfollows := follows_parts hsolid h
  have hbefore : (Cursor.start text).place.before.isNone = true := rfl
  rw [ends_regex, if_pos hbefore, hfollows.ends_eq, List.filter_map, splits, List.map_map]
  refine congrArg (List.map _) (List.filter_congr fun one hone => ?_)
  have hrest : ((Cursor.start text).through 0 one.1).place.rest = one.2 := by
    have htext := hfollows.text_eq _ one hone
    rw [Cursor.place_through, Place.after, ← htext, List.drop_left]
  rw [Function.comp_apply, hrest]

/-- A search finds the preferred split. -/
theorem search_regex (hsolid : ∀ token ∈ tokens, token.Solid)
    (h : Expression.parts tokens = .ok parts) (text : List Char) :
    (Part.regex parts).search text =
      (splits tokens text).head?.map fun split => (Cursor.start text).through 0 split := by
  have hstarts : (starts text 0).flatMap (Part.regex parts).ends =
      (Part.regex parts).ends (.start text) := by
    refine flatMap_starts (fun cursor hcursor => ?_) text
    rw [ends_regex, if_neg]
    rwa [Option.isNone_iff_eq_none]
  rw [search_eq (productive_regex parts), hstarts, ends_regex_start hsolid h, List.head?_map]

theorem types_of_mem_splits (hsolid : ∀ token ∈ tokens, token.Solid)
    (h : Expression.parts tokens = .ok parts) {text : List Char} {split : Split}
    (hsplit : split ∈ splits tokens text) : split.captures.map (·.2) = Part.parameters parts := by
  obtain ⟨one, hone, rfl⟩ := List.mem_map.1 hsplit
  exact (follows_parts hsolid h).types_eq _ one (List.mem_filter.1 hone).1

/-- Each placeholder is captured in the group of its number. -/
theorem map_captured?_search (hsolid : ∀ token ∈ tokens, token.Solid)
    (h : Expression.parts tokens = .ok parts) {text : List Char} {split : Split}
    (hsplit : split ∈ splits tokens text) :
    (List.range (Part.parameters parts).length).map
        (fun index => ((Cursor.start text).through 0 split).captured? (index + 1)) =
      split.captures.map fun capture => some capture.1 := by
  have htext : (Cursor.start text).place.rest = (split.map (·.2)).flatten ++ [] := by
    rw [List.append_nil, (mem_splits_iff.1 hsplit).text_eq]
    rfl
  rw [← Cursor.map_captured?_through 0 split htext, ← types_of_mem_splits hsolid h hsplit,
    List.length_map, List.range'_eq_map_range, List.map_map]
  refine List.map_congr_left fun index _ => ?_
  rw [Function.comp_apply, Nat.zero_add, Nat.add_comm]

/-- The captures are those of the preferred split. -/
theorem captures?_regex (hsolid : ∀ token ∈ tokens, token.Solid)
    (h : Expression.parts tokens = .ok parts) (text : List Char) :
    (Part.regex parts).captures? text =
      (splits tokens text).head?.map fun split => split.captures.map (·.1) := by
  rw [captures?, search_regex hsolid h, Option.map_map, groupCount_regex]
  refine Option.map_congr fun split hsplit => ?_
  have hgroups := map_captured?_search hsolid h (List.mem_of_mem_head? hsplit)
  have hfilled := congrArg (List.map fun captured => captured.getD []) hgroups
  rw [List.map_map, List.map_map] at hfilled
  exact hfilled

end

/-! ## Matching -/

theorem compile_eq_ok {expression : List Char} {compiled : Compiled}
    (h : compile expression = .ok compiled) :
    ∃ read made, tokens expression = .ok read ∧ parts read = .ok made ∧
      compiled = ⟨anchored made, Part.regex made, Part.parameters made⟩ := by
  unfold compile at h
  split at h
  · cases h
  · next pattern hpattern =>
    simp only [Pattern.ofExpression, bind_eq_ok] at hpattern
    obtain ⟨read, hread, made, hmade, heq⟩ := hpattern
    cases heq
    dsimp only at h
    rw [read_anchored] at h
    cases h
    exact ⟨read, made, hread, hmade, rfl⟩

/-- A match is made of the first split. -/
theorem match?_eq_head? {expression : List Char} {compiled : Compiled} {read : List Token}
    (h : compile expression = .ok compiled) (hread : tokens expression = .ok read)
    (text : List Char) :
    compiled.match? text = (splits read text).head?.elim (.ok none) fun split =>
      (Compiled.coerceAll split.captures).map some := by
  obtain ⟨_, made, hsame, hmade, rfl⟩ := compile_eq_ok h
  obtain rfl := Except.ok.inj (hread.symm.trans hsame)
  have hsolid := solid_of_mem_tokens hread
  rw [Compiled.match?, Compiled.captures?, captures?_regex hsolid hmade text]
  cases hfirst : (splits read text).head? with
  | none => rfl
  | some split =>
    have hzip : (split.captures.map (·.1)).zip (Part.parameters made) = split.captures := by
      rw [← types_of_mem_splits hsolid hmade (List.mem_of_mem_head? hfirst), List.zip_map']
      exact List.map_id _
    exact congrArg (fun captured => (Compiled.coerceAll captured).map some) hzip

theorem match?_ne_none_iff {expression : List Char} {compiled : Compiled} {read : List Token}
    (h : compile expression = .ok compiled) (hread : tokens expression = .ok read)
    {text : List Char} : compiled.match? text ≠ .ok none ↔ ∃ split, IsSplit read text split := by
  rw [match?_eq_head? h hread]
  cases hsplits : splits read text with
  | nil =>
    refine iff_of_false (fun hne => hne rfl) fun ⟨split, hsplit⟩ => ?_
    have hmem := mem_splits_iff.2 hsplit
    rw [hsplits] at hmem
    cases hmem
  | cons split others =>
    have hmem : split ∈ splits read text := by
      rw [hsplits]
      exact List.mem_cons_self ..
    refine iff_of_true ?_ ⟨split, mem_splits_iff.1 hmem⟩
    rw [List.head?_cons, Option.elim_some]
    cases Compiled.coerceAll split.captures with
    | ok values => exact nofun
    | error error => exact nofun

/-- A compiled expression matches the texts that split into pieces of its tokens. The captures that
its values are made of are the pieces of the placeholders in the first of all splits. -/
theorem match_eq_splits {expression : List Char} {compiled : Compiled}
    (h : compile expression = .ok compiled) :
    ∃ read, tokens expression = .ok read ∧ ∀ text,
      (compiled.match? text ≠ .ok none ↔ ∃ split, IsSplit read text split) ∧
      (∀ split, split ∈ splits read text ↔ IsSplit read text split) ∧
      ∀ split, (splits read text).head? = some split →
        compiled.captures? text = some (split.captures.map (·.1)) ∧
        compiled.match? text = (Compiled.coerceAll split.captures).map some := by
  obtain ⟨read, made, hread, hmade, hcompiled⟩ := compile_eq_ok h
  refine ⟨read, hread, fun text => ⟨match?_ne_none_iff h hread, fun split => mem_splits_iff,
    fun split hsplit => ⟨?_, ?_⟩⟩⟩
  · rw [hcompiled, Compiled.captures?, captures?_regex (solid_of_mem_tokens hread) hmade, hsplit,
      Option.map_some]
  · rw [match?_eq_head? h hread, hsplit, Option.elim_some]

theorem match_eq_splits_boxes :
    ∃ compiled, compile "{int} item(s)/box".toList = .ok compiled ∧
      compiled.captures? "-3 items".toList = some ["-3".toList] := by
  obtain ⟨compiled, hcompiled⟩ : ∃ compiled, compile "{int} item(s)/box".toList = .ok compiled := by
    exact ⟨_, rfl⟩
  obtain ⟨read, hread, hmeaning⟩ := match_eq_splits hcompiled
  cases hread
  have hsplit := (hmeaning "-3 items".toList).2.2 _ rfl
  exact ⟨compiled, hcompiled, hsplit.1⟩

end Stepbook.Expression
