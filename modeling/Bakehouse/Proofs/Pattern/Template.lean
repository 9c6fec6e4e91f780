import Bakehouse.Proofs.Pattern.Tiling
import Mathlib.Data.List.TakeWhile

namespace Bakehouse

namespace Pattern

open Text

/-- What stands after a dollar sign refers to a group, in braces or as far as the word goes. -/
inductive Reference : List Char → List Char → List Char → Prop where
  | braced {name rest : List Char} (hne : name ≠ []) (hname : ∀ c ∈ name, isWord c = true) :
      Reference ('\x7b' :: (name ++ '\x7d' :: rest)) name rest
  | bare {name rest : List Char} (hne : name ≠ []) (hname : ∀ c ∈ name, isWord c = true)
      (hend : ∀ c ∈ rest.head?, isWord c = false) : Reference (name ++ rest) name rest

/-- The text is a template with these parts. -/
inductive Spells : List Char → List Part → Prop where
  | nil : Spells [] []
  | char {c : Char} {cs : List Char} {ps : List Part} (hc : c ≠ '$') (h : Spells cs ps) :
      Spells (c :: cs) (.literal c :: ps)
  | dollars {cs : List Char} {ps : List Part} (h : Spells cs ps) :
      Spells ('$' :: '$' :: cs) (.literal '$' :: ps)
  | reference {cs name rest : List Char} {ps : List Part} (href : Reference cs name rest)
      (h : Spells rest ps) : Spells ('$' :: cs) (.group name :: ps)
  | lone {cs : List Char} {ps : List Part} (hdollar : cs.head? ≠ some '$')
      (hnone : ∀ name rest, ¬ Reference cs name rest) (h : Spells cs ps) :
      Spells ('$' :: cs) (.literal '$' :: ps)

theorem isWord_dollar : isWord '$' = false := by
  decide +kernel

theorem isWord_open : isWord '\x7b' = false := by
  decide +kernel

theorem isWord_close : isWord '\x7d' = false := by
  decide +kernel

theorem isWord_of_mem_takeWhile {c : Char} {cs : List Char} (h : c ∈ cs.takeWhile isWord) :
    isWord c = true :=
  List.mem_takeWhile_imp h

theorem head?_dropWhile {c : Char} {cs : List Char} (h : c ∈ (cs.dropWhile isWord).head?) :
    isWord c = false := by
  have hnot := List.head?_dropWhile_not isWord cs
  rw [Option.mem_def] at h
  rw [h] at hnot
  simpa using hnot

/-- The word characters at the start of a text that goes on with something else. -/
theorem takeWhile_append {name rest : List Char} (hname : ∀ c ∈ name, isWord c = true)
    (hend : ∀ c ∈ rest.head?, isWord c = false) :
    (name ++ rest).takeWhile isWord = name ∧ (name ++ rest).dropWhile isWord = rest := by
  have hrest : rest.takeWhile isWord = [] ∧ rest.dropWhile isWord = rest := by
    cases rest with
    | nil => exact ⟨rfl, rfl⟩
    | cons c rest =>
        have hc := hend c rfl
        exact ⟨by simp [hc], by simp [hc]⟩
  rw [List.takeWhile_append_of_pos hname, List.dropWhile_append_of_pos hname, hrest.1, hrest.2,
    List.append_nil]
  exact ⟨rfl, rfl⟩

theorem reference?_eq_some_iff {cs name rest : List Char} :
    reference? cs = some (name, rest) ↔ Reference cs name rest := by
  constructor
  · intro h
    unfold reference? at h
    split at h
    · rename_i inner
      split at h
      · rename_i c name' rest' htake hdrop
        injection h with h
        injection h with hname hrest
        subst hname hrest
        have hinner := List.takeWhile_append_dropWhile (p := isWord) (l := inner)
        rw [htake, hdrop] at hinner
        rw [← hinner]
        exact .braced (List.cons_ne_nil _ _) fun d hd => isWord_of_mem_takeWhile (htake ▸ hd)
      · cases h
    · split at h
      · rename_i c name' htake
        injection h with h
        injection h with hname hrest
        subst hname hrest
        have hcs := List.takeWhile_append_dropWhile (p := isWord) (l := cs)
        rw [htake] at hcs
        have hreference : Reference (c :: name' ++ cs.dropWhile isWord) (c :: name')
            (cs.dropWhile isWord) :=
          .bare (List.cons_ne_nil _ _) (fun d hd => isWord_of_mem_takeWhile (htake ▸ hd))
            fun d hd => head?_dropWhile hd
        rwa [hcs] at hreference
      · cases h
  · rintro (⟨hne, hname⟩ | ⟨hne, hname, hend⟩)
    · have hend : ∀ c ∈ ('\x7d' :: rest).head?, isWord c = false := by
        simpa using isWord_close
      obtain ⟨htake, hdrop⟩ := takeWhile_append hname hend
      cases name with
      | nil => exact absurd rfl hne
      | cons c name => simp only [reference?, htake, hdrop]
    · obtain ⟨htake, hdrop⟩ := takeWhile_append hname hend
      cases name with
      | nil => exact absurd rfl hne
      | cons c name =>
          have hc : c ≠ '\x7b' := by
            rintro rfl
            exact absurd (hname _ List.mem_cons_self) (by simp [isWord_open])
          unfold reference?
          split
          · rename_i heq
            exact absurd (List.cons.inj heq).1 hc
          · simp only [htake, hdrop]

theorem reference?_eq_none_iff {cs : List Char} :
    reference? cs = none ↔ ∀ name rest, ¬ Reference cs name rest := by
  rw [Option.eq_none_iff_forall_ne_some, Prod.forall]
  exact forall₂_congr fun _ _ => not_congr reference?_eq_some_iff

/-- A dollar sign is no part of a reference that another one starts. -/
theorem Reference.head?_ne {cs name rest : List Char} (h : Reference cs name rest) :
    cs.head? ≠ some '$' := by
  cases h with
  | braced => simp
  | bare hne hname =>
      cases name with
      | nil => exact absurd rfl hne
      | cons c name =>
          intro hc
          cases hc
          exact absurd (hname _ List.mem_cons_self) (by simp [isWord_dollar])

theorem parts_dollar {cs : List Char} (hdollar : cs.head? ≠ some '$') :
    parts ('$' :: cs) =
      match reference? cs with
      | some (name, rest) => .group name :: parts rest
      | none => .literal '$' :: parts cs := by
  conv_lhs => unfold parts
  split
  · rename_i heq
    cases heq
  · rename_i heq
    simp [(List.cons.inj heq).2] at hdollar
  · rename_i heq
    rw [← (List.cons.inj heq).2]
    split <;> rename_i href <;> simp only [href]
  · rename_i hne heq
    exact absurd (List.cons.inj heq).1.symm hne

theorem spells_parts (cs : List Char) : Spells cs (parts cs) := by
  induction cs using parts.induct with
  | case1 =>
      rw [parts]
      exact .nil
  | case2 cs ih =>
      rw [parts]
      exact .dollars ih
  | case3 cs hdollar name rest href ih =>
      have hreference := reference?_eq_some_iff.mp href
      rw [parts_dollar hreference.head?_ne, href]
      exact .reference hreference ih
  | case4 cs hdollar href ih =>
      have hhead : cs.head? ≠ some '$' := by
        cases cs with
        | nil => simp
        | cons c cs =>
            intro hc
            cases hc
            exact hdollar cs rfl
      rw [parts_dollar hhead, href]
      exact .lone hhead (reference?_eq_none_iff.mp href) ih
  | case5 c cs hdollars hdollar ih =>
      rw [parts]
      · exact .char hdollar ih
      all_goals assumption

theorem parts_eq_iff {cs : List Char} {ps : List Part} : parts cs = ps ↔ Spells cs ps := by
  constructor
  · rintro rfl
    exact spells_parts cs
  · intro h
    induction h with
    | nil => rw [parts]
    | @char c cs ps hc h ih =>
        rw [parts, ih]
        · rintro rest rfl
          exact absurd rfl hc
        · rintro rfl
          exact absurd rfl hc
    | dollars h ih => rw [parts, ih]
    | reference href h ih =>
        rw [parts_dollar href.head?_ne, reference?_eq_some_iff.mpr href]
        exact congrArg _ ih
    | lone hdollar hnone h ih =>
        rw [parts_dollar hdollar, reference?_eq_none_iff.mpr hnone]
        exact congrArg _ ih

/-- Every dollar sign written twice. -/
def doubled (cs : List Char) : List Char :=
  cs.flatMap fun c => if c = '$' then ['$', '$'] else [c]

theorem spells_doubled (cs : List Char) : Spells (doubled cs) (cs.map .literal) := by
  induction cs with
  | nil => exact .nil
  | cons c cs ih =>
      rw [doubled, List.flatMap_cons, ← doubled, List.map_cons]
      by_cases hc : c = '$'
      · rw [if_pos hc, hc]
        exact .dollars ih
      · rw [if_neg hc]
        exact .char hc ih

/-- A template without references is text. -/
theorem Compiled.expand_literals (p : Compiled) (text : Array Char) (m : Match)
    {template cs : List Char} (h : Spells template (cs.map .literal)) :
    p.expand text template m = .ok cs := by
  have hparts : (parts template).mapM (p.expandPart text m) = .ok (cs.map fun c => [c]) := by
    rw [parts_eq_iff.mpr h, mapM_eq_ok_iff fun _ _ _ => Iff.rfl, List.forall₂_map_left_iff,
      List.forall₂_map_right_iff, List.forall₂_same]
    exact fun c _ => rfl
  rw [expand, hparts]
  change Except.ok (cs.flatMap fun c => [c]) = _
  rw [List.flatMap_singleton']

end Pattern

/-- Doubling the dollar signs of a text makes it a template of itself, so that it takes the place of
every match as it is. -/
theorem doubled_dollars_quote {characters : Pattern.CharacterNames} {pattern : String}
    {p : Pattern.Compiled} (hp : Pattern.compile characters pattern = .ok p) (s t : String) :
    (∀ (text : Array Char) (m : Pattern.Match),
      p.expand text (Pattern.doubled s.toList) m = .ok s.toList) ∧
    ∃ tiling : Pattern.Tiling Char, tiling.Cuts p t.toList ∧
      ∀ bag : Arguments, bag.text "pattern" = .ok pattern →
        bag.text "replacement" = .ok (String.ofList (Pattern.doubled s.toList)) →
        (Catalog.regexReplace characters).run bag (.text t) =
          .ok (.ofChars (tiling.fill (tiling.tiles.map fun _ => s.toList))) := by
  have hexpand : ∀ text m, p.expand text (Pattern.doubled s.toList) m = .ok s.toList :=
    fun text m => p.expand_literals text m (Pattern.spells_doubled s.toList)
  refine ⟨hexpand, p.tiling t.toList.toArray, p.cuts_tiling t.toList, ?_⟩
  intro bag hpattern htemplate
  rw [Catalog.run_regexReplace hp hpattern htemplate, String.toList_ofList,
    Pattern.Compiled.replace_eq_ok (hexpand _)]
  rfl

/-- Dollar signs in a row, and right before a word and a brace. -/
theorem doubled_dollars_quote_braces :
    let bag : Arguments :=
      ⟨[("pattern", .text "b|"), ("replacement", .text "$$$$1$$\x7b1\x7d$$")]⟩
    ∃ p, Pattern.compile [] "b|" = .ok p ∧
      Pattern.doubled "$$1$\x7b1\x7d$".toList = "$$$$1$$\x7b1\x7d$$".toList ∧
      ∃ tiling : Pattern.Tiling Char, tiling.Cuts p "ab".toList ∧
        (Catalog.regexReplace []).run bag (.text "ab") = .ok (.ofChars
          (tiling.fill (tiling.tiles.map fun _ => "$$1$\x7b1\x7d$".toList))) := by
  intro bag
  obtain ⟨p, hp⟩ := exists_of_isOk (x := Pattern.compile [] "b|") (by decide +kernel)
  have hdoubled : Pattern.doubled "$$1$\x7b1\x7d$".toList = "$$$$1$$\x7b1\x7d$$".toList := by
    decide +kernel
  obtain ⟨-, tiling, hcuts, hreplace⟩ := doubled_dollars_quote hp "$$1$\x7b1\x7d$" "ab"
  refine ⟨p, hp, hdoubled, tiling, hcuts, hreplace bag (by decide +kernel) ?_⟩
  rw [hdoubled]
  decide +kernel

end Bakehouse
