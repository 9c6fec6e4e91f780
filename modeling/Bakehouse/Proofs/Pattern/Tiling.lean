import Bakehouse.Operation.Catalog
import Bakehouse.Proofs.Pattern.Matches
import Bakehouse.Proofs.Traversal

namespace Bakehouse

namespace Pattern

variable {α : Type} {text : Array α}

theorem slice_append {a b c : Nat} (hab : a ≤ b) (hbc : b ≤ c) :
    slice text a b ++ slice text b c = slice text a c := by
  rw [slice, slice, ← Array.toList_append, Array.extract_append_extract, Nat.min_eq_left hab,
    Nat.max_eq_right hbc, slice]

theorem slice_all (cs : List α) : slice cs.toArray 0 cs.toArray.size = cs := by
  rw [slice, Array.extract_size]

theorem Tiling.fill_cons (gap : List α) (m : Match) (t : Tiling α) (e : List α)
    (es : List (List α)) :
    Tiling.fill ⟨(gap, m) :: t.tiles, t.rest⟩ (e :: es) = gap ++ (e ++ t.fill es) := by
  simp only [fill, List.zipWith_cons_cons, List.flatten_cons, List.append_assoc]

theorem map_tilesFrom (place : Nat) (ms : List Match) :
    (tilesFrom text place ms).tiles.map (·.2) = ms := by
  induction ms generalizing place with
  | nil => rfl
  | cons m ms ih => exact congrArg (m :: ·) (ih m.stop)

variable [TextUnit α] {p : Compiled}

theorem Finds.le_size {mayBeEmpty : Bool} {place : Nat} {ms : List Match}
    (h : Finds p text mayBeEmpty place ms) : place ≤ text.size := by
  induction h with
  | done hplace _ => exact hplace
  | step hplace hstop _ _ _ ih => exact Nat.le_trans hplace (Nat.le_trans hstop ih)

/-- Cutting at the matches of a scan loses nothing. -/
theorem Finds.fill_tilesFrom {mayBeEmpty : Bool} {place : Nat} {ms : List Match}
    (h : Finds p text mayBeEmpty place ms) :
    (tilesFrom text place ms).fill (ms.map (·.text text)) = slice text place text.size := by
  induction h with
  | done => rfl
  | @step mayBeEmpty place m ms hplace hstop _ _ hrest ih =>
      simp only [tilesFrom, List.map_cons, Tiling.fill_cons]
      rw [ih, Match.text, slice_append hstop hrest.le_size,
        slice_append hplace (Nat.le_trans hstop hrest.le_size)]

/-- A text cut at the matches of a scan from its start. -/
structure Tiling.Cuts (tiling : Tiling α) (p : Compiled) (cs : List α) : Prop where
  finds : Finds p cs.toArray true 0 (tiling.tiles.map (·.2))
  fill : cs = tiling.fill (tiling.tiles.map fun tile => tile.2.text cs.toArray)

theorem Compiled.cuts_tiling (p : Compiled) (cs : List α) :
    (p.tiling cs.toArray).Cuts p cs := by
  have hfinds := p.finds_matchesIn cs.toArray
  have hmatches : (p.tiling cs.toArray).tiles.map (·.2) = p.matchesIn cs.toArray :=
    map_tilesFrom 0 _
  refine ⟨hmatches ▸ hfinds, ?_⟩
  have htexts : ((p.tiling cs.toArray).tiles.map fun tile => tile.2.text cs.toArray) =
      (p.matchesIn cs.toArray).map (·.text cs.toArray) := by
    rw [← hmatches, List.map_map]
    rfl
  rw [htexts, tiling, hfinds.fill_tilesFrom, slice_all]

theorem Compiled.matchTexts_eq (p : Compiled) (cs : List α) :
    p.matchTexts cs = [TextUnit.ofChar '\n'].intercalate
      ((p.tiling cs.toArray).tiles.map fun tile => tile.2.text cs.toArray) := by
  have hmatches : (p.tiling cs.toArray).tiles.map (·.2) = p.matchesIn cs.toArray :=
    map_tilesFrom 0 _
  rw [matchTexts, ← hmatches, List.map_map]
  rfl

theorem Compiled.replace_eq_ok_iff {template : List Char} {cs out : List α} :
    p.replace template cs = .ok out ↔
      ∃ es, List.Forall₂ (fun tile e => p.expand cs.toArray template tile.2 = .ok e)
        (p.tiling cs.toArray).tiles es ∧ (p.tiling cs.toArray).fill es = out := by
  rw [replace]
  constructor
  · intro h
    obtain ⟨es, hes, hout⟩ := exists_of_map h
    exact ⟨es, (mapM_eq_ok_iff fun _ _ _ => Iff.rfl).mp hes, hout⟩
  · rintro ⟨es, hes, hout⟩
    simp only [(mapM_eq_ok_iff fun _ _ _ => Iff.rfl).mpr hes]
    exact congrArg Except.ok hout

/-- A template that every match expands to the same kind of text. -/
theorem Compiled.replace_eq_ok {template : List Char} {cs : List α} {f : Match → List α}
    (h : ∀ m, p.expand cs.toArray template m = .ok (f m)) :
    p.replace template cs =
      .ok ((p.tiling cs.toArray).fill ((p.tiling cs.toArray).tiles.map fun tile => f tile.2)) := by
  refine replace_eq_ok_iff.mpr ⟨_, ?_, rfl⟩
  rw [List.forall₂_map_right_iff, List.forall₂_same]
  exact fun tile _ => h tile.2

/-- A template that fails at every match fails at the first. -/
theorem Compiled.replace_eq_error (p : Compiled) {template : List Char} {cs : List α} {e : Escape}
    (hmatches : p.matchesIn cs.toArray ≠ [])
    (h : ∀ m, p.expand cs.toArray template m = .error e) : p.replace template cs = .error e := by
  have htiles : (p.tiling cs.toArray).tiles.mapM
      (fun tile => p.expand cs.toArray template tile.2) = .error e := by
    cases hcut : (p.tiling cs.toArray).tiles with
    | nil =>
        have hnone : (p.tiling cs.toArray).tiles.map (·.2) = [] := by rw [hcut, List.map_nil]
        exact absurd (hnone ▸ map_tilesFrom 0 _).symm hmatches
    | cons tile tiles => exact mapM_cons_eq_error_iff.mpr (.inl (h tile.2))
  exact congrArg (Except.map (p.tiling cs.toArray).fill) htiles

/-- Group zero is the whole match. -/
theorem Compiled.expand_whole (p : Compiled) (text : Array α) (m : Match) {template : List Char}
    (h : parts template = [.group ['0']]) : p.expand text template m = .ok (m.text text) := by
  rw [expand, h]
  change Except.ok ([m.text text].flatten) = _
  rw [List.flatten_singleton]

end Pattern

theorem compilePattern_eq_ok {characters : Pattern.CharacterNames} {pattern : String}
    {p : Pattern.Compiled} (hp : Pattern.compile characters pattern = .ok p) :
    compilePattern characters pattern = .ok p := by
  rw [compilePattern, hp]

namespace Catalog

variable {characters : Pattern.CharacterNames} {bag : Arguments} {pattern : String}
  {p : Pattern.Compiled}

theorem run_regexMatch (hp : Pattern.compile characters pattern = .ok p)
    (hpattern : bag.text "pattern" = .ok pattern) (t : String) :
    (regexMatch characters).run bag (.text t) = .ok (.ofChars (p.matchTexts t.toList)) := by
  simp only [run, matchPattern, hpattern, liftFault, Except.mapError, Payload.textForPattern]
  change (compilePattern characters pattern).bind
    (fun q => .ok (Payload.ofChars (q.matchTexts t.toList))) = _
  rw [compilePattern_eq_ok hp]
  rfl

theorem run_regexReplace {template : String} (hp : Pattern.compile characters pattern = .ok p)
    (hpattern : bag.text "pattern" = .ok pattern)
    (htemplate : bag.text "replacement" = .ok template) (t : String) :
    (regexReplace characters).run bag (.text t) =
      (liftEscape (p.replace template.toList t.toList)).map .ofChars := by
  simp only [run, replacePattern, hpattern, htemplate, liftFault, Except.mapError,
    Payload.textForPattern]
  change (compilePattern characters pattern).bind (fun q =>
    (liftEscape (q.replace template.toList t.toList)).bind fun cs =>
      .ok (Payload.ofChars cs)) = _
  rw [compilePattern_eq_ok hp]
  cases hreplace : p.replace template.toList t.toList <;> simp only [Except.bind, hreplace] <;> rfl

end Catalog

/-- Listing the matches of a text and replacing them see the same cut of it, whatever the template,
and a template that stands for the whole match leaves every text as it is. -/
theorem match_and_replace_share_tiling {characters : Pattern.CharacterNames} {pattern : String}
    {p : Pattern.Compiled} (hp : Pattern.compile characters pattern = .ok p) (t : String) :
    ∃ tiling : Pattern.Tiling Char, tiling.Cuts p t.toList ∧
      (∀ bag : Arguments, bag.text "pattern" = .ok pattern →
        (Catalog.regexMatch characters).run bag (.text t) = .ok (.ofChars (['\n'].intercalate
          (tiling.tiles.map fun tile => tile.2.text t.toList.toArray)))) ∧
      (∀ (bag : Arguments) (template : String) (out : Payload),
        bag.text "pattern" = .ok pattern → bag.text "replacement" = .ok template →
        (Catalog.regexReplace characters).run bag (.text t) = .ok out →
          ∃ es, List.Forall₂ (fun tile e =>
              p.expand t.toList.toArray template.toList tile.2 = .ok e) tiling.tiles es ∧
            out = .ofChars (tiling.fill es)) ∧
      ∀ bag : Arguments, bag.text "pattern" = .ok pattern →
        (bag.text "replacement" = .ok "$0" ∨ bag.text "replacement" = .ok "$\x7b0\x7d") →
          (Catalog.regexReplace characters).run bag (.text t) = .ok (.text t) := by
  have hcuts := p.cuts_tiling t.toList
  refine ⟨p.tiling t.toList.toArray, hcuts, ?_, ?_, ?_⟩
  · intro bag hpattern
    rw [Catalog.run_regexMatch hp hpattern, p.matchTexts_eq]
    rfl
  · intro bag template out hpattern htemplate hout
    rw [Catalog.run_regexReplace hp hpattern htemplate] at hout
    obtain ⟨cs, hcs, rfl⟩ := exists_of_map hout
    rcases hreplace : p.replace template.toList t.toList with e | cs'
    · rw [hreplace] at hcs
      cases hcs
    · rw [hreplace] at hcs
      cases hcs
      obtain ⟨es, hes, rfl⟩ := Pattern.Compiled.replace_eq_ok_iff.mp hreplace
      exact ⟨es, hes, rfl⟩
  · intro bag hpattern htemplate
    have hwhole : ∃ template : String, bag.text "replacement" = .ok template ∧
        Pattern.parts template.toList = [.group ['0']] := by
      rcases htemplate with h | h
      · exact ⟨_, h, by decide +kernel⟩
      · exact ⟨_, h, by decide +kernel⟩
    obtain ⟨template, htemplate, hparts⟩ := hwhole
    rw [Catalog.run_regexReplace hp hpattern htemplate,
      Pattern.Compiled.replace_eq_ok fun m => p.expand_whole _ m hparts, ← hcuts.fill]
    change Except.ok (Payload.text (String.ofList t.toList)) = _
    rw [String.ofList_toList]

/-- A match right after an empty one, and empty matches where a lookbehind allows them. -/
theorem match_and_replace_share_tiling_adjacent :
    let pattern := "(?<=a)(b*)|c"
    let bag : Arguments := ⟨[("pattern", .text pattern), ("replacement", .text "<$1$$>")]⟩
    ∃ p, ∃ tiling : Pattern.Tiling Char, Pattern.compile [] pattern = .ok p ∧
      tiling.Cuts p "abbaca".toList ∧
      (Catalog.regexMatch []).run bag (.text "abbaca") = .ok (.text "bb\n\nc\n") ∧
      ∃ es, List.Forall₂ (fun tile e =>
          p.expand "abbaca".toList.toArray "<$1$$>".toList tile.2 = .ok e) tiling.tiles es ∧
        .text "a<bb$>a<$><$>a<$>" = Payload.ofChars (tiling.fill es) := by
  intro pattern bag
  obtain ⟨p, hp⟩ := exists_of_isOk (x := Pattern.compile [] pattern) (by decide +kernel)
  obtain ⟨tiling, hcuts, -, hreplace, -⟩ := match_and_replace_share_tiling hp "abbaca"
  exact ⟨p, tiling, hp, hcuts, by decide +kernel,
    hreplace bag "<$1$$>" _ (by decide +kernel) (by decide +kernel) (by decide +kernel)⟩

end Bakehouse
