import Bakehouse.Proofs.ByteLiterals
import Bakehouse.Proofs.Pattern.Template

namespace Bakehouse

namespace Pattern

open Text

variable {p : Compiled} {text : Array Char} {m : Match} {template : List Char}

/-- The word refers to group `n`: by number if it is a decimal numeral, by name otherwise. -/
inductive Compiled.Names (p : Compiled) : List Char → Nat → Prop where
  | number {name : List Char} {n : Nat} (hname : Numeral.Denotes 10 name n) (hn : n ≤ p.groups) :
      Names p name n
  | name {name : List Char} {n : Nat} (hname : ∀ k, ¬ Numeral.Denotes 10 name k)
      (hlookup : p.names.lookup (String.ofList name) = some n) : Names p name n

/-- The text that a part of a template contributes: that of the group, if there is such a group and
it took part in the match. -/
inductive Compiled.Contributes (p : Compiled) (text : Array Char) (m : Match) :
    Part → List Char → Prop where
  | literal (c : Char) : Contributes p text m (.literal c) [c]
  | whole {name : List Char} (h : p.Names name 0) : Contributes p text m (.group name) (m.text text)
  | span {name : List Char} {n start stop : Nat} (h : p.Names name n) (hn : n ≠ 0)
      (hspan : spanOf? m.marks n = some (start, stop)) :
      Contributes p text m (.group name) (slice text start stop)
  | idle {name : List Char} {n : Nat} (h : p.Names name n) (hn : n ≠ 0)
      (hspan : spanOf? m.marks n = none) : Contributes p text m (.group name) []
  | unknown {name : List Char} (h : ∀ n, ¬ p.Names name n) : Contributes p text m (.group name) []

/-- A decimal numeral that is not converted. -/
def TooLong (name : List Char) : Prop :=
  (∃ n, Numeral.Denotes 10 name n) ∧ 4300 < name.length

theorem denotes_ten_iff {name : List Char} {n : Nat} :
    Numeral.Denotes 10 name n ↔
      name.all isAsciiDigit = true ∧ n = Numeral.value 10 (name.map fun c => c.toNat - 48) := by
  rw [Numeral.denotes_iff (by decide), Form.digitsOf?_ten]
  by_cases hall : name.all isAsciiDigit = true
  · simp [hall]
  · simp [hall]

theorem exists_denotes_ten_iff {name : List Char} :
    (∃ n, Numeral.Denotes 10 name n) ↔ name.all isAsciiDigit = true := by
  simp only [denotes_ten_iff, exists_and_left, exists_eq, and_true]

theorem Compiled.groupNumber_of_tooLong (p : Compiled) {name : List Char} (h : TooLong name) :
    p.groupNumber name = .error (.tooManyDigits name.length) := by
  have hlong : Numeral.maxDigits < name.length := h.2
  rw [groupNumber, if_pos (exists_denotes_ten_iff.mp h.1), if_pos hlong]

theorem Compiled.groupNumber_of_not_tooLong (p : Compiled) {name : List Char} (h : ¬ TooLong name) :
    ∃ n?, p.groupNumber name = .ok n? ∧ ∀ n, n? = some n ↔ p.Names name n := by
  rw [groupNumber]
  by_cases hall : name.all isAsciiDigit = true
  · have hshort : ¬ Numeral.maxDigits < name.length :=
      fun hlong => h ⟨exists_denotes_ten_iff.mpr hall, hlong⟩
    rw [if_pos hall, if_neg hshort]
    refine ⟨_, rfl, fun n => ?_⟩
    rw [Option.ite_none_right_eq_some, Option.some.injEq]
    constructor
    · rintro ⟨hn, rfl⟩
      exact .number (denotes_ten_iff.mpr ⟨hall, rfl⟩) hn
    · rintro (⟨hname, hn⟩ | ⟨hname, -⟩)
      · obtain ⟨-, rfl⟩ := denotes_ten_iff.mp hname
        exact ⟨hn, rfl⟩
      · exact absurd (exists_denotes_ten_iff.mpr hall) (not_exists.mpr hname)
  · rw [if_neg hall]
    refine ⟨_, rfl, fun n => ⟨fun hlookup => ?_, ?_⟩⟩
    · exact .name (not_exists.mp fun hname => hall (exists_denotes_ten_iff.mp hname)) hlookup
    · rintro (⟨hname, -⟩ | ⟨-, hlookup⟩)
      · exact absurd (denotes_ten_iff.mp hname).1 hall
      · exact hlookup

theorem Compiled.contributes_group (p : Compiled) (text : Array Char) (m : Match)
    {name : List Char} {n? : Option Nat} (h : ∀ n, n? = some n ↔ p.Names name n) :
    p.Contributes text m (.group name) (n?.elim [] (m.group text)) := by
  cases n? with
  | none => exact .unknown fun n hn => nomatch (h n).mpr hn
  | some n =>
      have hname := (h n).mp rfl
      rw [Option.elim_some, Match.group]
      by_cases hn : n = 0
      · subst hn
        exact .whole hname
      · rw [if_neg (by simpa using hn)]
        split
        · rename_i hspan
          exact .span hname hn hspan
        · rename_i hspan
          exact .idle hname hn hspan

theorem Compiled.expandPart_of_not_tooLong (p : Compiled) (text : Array Char) (m : Match)
    {part : Part} (h : ∀ name, part = .group name → ¬ TooLong name) :
    ∃ e, p.Contributes text m part e ∧ p.expandPart text m part = .ok e := by
  cases part with
  | literal c => exact ⟨[c], .literal c, rfl⟩
  | group name =>
      obtain ⟨n?, hnumber, hnames⟩ := p.groupNumber_of_not_tooLong (h name rfl)
      refine ⟨_, p.contributes_group text m hnames, ?_⟩
      rw [expandPart, hnumber]
      rfl

theorem Compiled.expand_eq_ok (p : Compiled) (text : Array Char) (m : Match)
    (h : ∀ name, .group name ∈ parts template → ¬ TooLong name) :
    ∃ es, List.Forall₂ (p.Contributes text m) (parts template) es ∧
      p.expand text template m = .ok es.flatten := by
  have hparts : ∃ es, List.Forall₂ (fun part e => p.Contributes text m part e ∧
      p.expandPart text m part = .ok e) (parts template) es :=
    exists_forall₂_iff.mpr fun part hpart =>
      p.expandPart_of_not_tooLong text m fun name hname => h name (hname ▸ hpart)
  obtain ⟨es, hes⟩ := hparts
  refine ⟨es, hes.imp fun _ _ he => he.1, ?_⟩
  rw [expand, (mapM_eq_ok_iff fun _ _ _ => Iff.rfl).mpr (hes.imp fun _ _ he => he.2)]
  rfl

/-- The first number that is too long is what is reported. -/
theorem Compiled.expand_eq_error (p : Compiled) (text : Array Char) (m : Match)
    (h : ∃ name, .group name ∈ parts template ∧ TooLong name) :
    ∃ name, .group name ∈ parts template ∧ TooLong name ∧
      p.expand text template m = .error (.tooManyDigits name.length) := by
  obtain ⟨long, hlong, htoo⟩ := h
  cases hrun : (parts template).mapM (p.expandPart text m) with
  | ok es =>
      obtain ⟨e, he⟩ := exists_mapM_eq_ok_iff.mp ⟨es, hrun⟩ _ hlong
      rw [expandPart, p.groupNumber_of_tooLong htoo] at he
      cases he
  | error e =>
      obtain ⟨before, part, after, hparts, -, hpart⟩ := mapM_eq_error_iff.mp hrun
      have hmem : part ∈ parts template := by simp [hparts]
      cases part with
      | literal c => cases hpart
      | group name =>
          by_cases htooName : TooLong name
          · rw [expandPart, p.groupNumber_of_tooLong htooName] at hpart
            cases hpart
            exact ⟨name, hmem, htooName, by rw [expand, hrun]; rfl⟩
          · obtain ⟨n?, hnumber, -⟩ := p.groupNumber_of_not_tooLong htooName
            rw [expandPart, hnumber] at hpart
            cases hpart

theorem Compiled.expand_of_tooLong (p : Compiled) (text : Array Char) (m : Match)
    {name : List Char} (h : Spells template [.group name]) (hlong : TooLong name) :
    p.expand text template m = .error (.tooManyDigits name.length) := by
  have hparts := parts_eq_iff.mpr h
  obtain ⟨name', hname, -, hexpand⟩ :=
    p.expand_eq_error text m ⟨name, by rw [hparts]; exact .head [], hlong⟩
  rw [hparts, List.mem_singleton] at hname
  cases hname
  exact hexpand

/-- Zeros are worth nothing, however many they are. -/
theorem denotes_zeros (n : Nat) : Numeral.Denotes 10 (List.replicate n '0') 0 := by
  induction n with
  | zero => exact denotes_ten_iff.mpr ⟨rfl, rfl⟩
  | succ n ih =>
      obtain ⟨hall, hvalue⟩ := denotes_ten_iff.mp ih
      exact denotes_ten_iff.mpr ⟨Bool.and_eq_true_iff.mpr ⟨by decide, hall⟩, hvalue⟩

end Pattern

/-- Every template is expanded, each reference contributing the text of its group or nothing, unless
there is a number of more than 4300 digits among its references. -/
theorem references_expand {characters : Pattern.CharacterNames} {pattern : String}
    {p : Pattern.Compiled} (hp : Pattern.compile characters pattern = .ok p) (template : String) :
    ∃ ps, Pattern.Spells template.toList ps ∧
      ((∀ name, .group name ∈ ps → ¬ Pattern.TooLong name) →
        (∀ (text : Array Char) (m : Pattern.Match), ∃ es,
          List.Forall₂ (p.Contributes text m) ps es ∧
            p.expand text template.toList m = .ok es.flatten) ∧
        ∀ (bag : Arguments) (t : String), bag.text "pattern" = .ok pattern →
          bag.text "replacement" = .ok template →
          ∃ out, (Catalog.regexReplace characters).run bag (.text t) = .ok (.text out)) ∧
      ((∃ name, .group name ∈ ps ∧ Pattern.TooLong name) →
        ∀ (text : Array Char) (m : Pattern.Match), ∃ name, .group name ∈ ps ∧
          Pattern.TooLong name ∧
            p.expand text template.toList m = .error (.tooManyDigits name.length)) := by
  refine ⟨_, Pattern.spells_parts _, fun hshort => ?_, fun hlong text m =>
    p.expand_eq_error text m hlong⟩
  have hexpand := fun text m => p.expand_eq_ok text m hshort
  refine ⟨hexpand, fun bag t hpattern htemplate => ?_⟩
  have hes : ∃ es, List.Forall₂
      (fun (tile : List Char × Pattern.Match) e =>
        p.expand t.toList.toArray template.toList tile.2 = .ok e)
      (p.tiling t.toList.toArray).tiles es := by
    refine exists_forall₂_iff.mpr fun tile _ => ?_
    obtain ⟨es, -, he⟩ := hexpand t.toList.toArray tile.2
    exact ⟨es.flatten, he⟩
  obtain ⟨es, hes⟩ := hes
  rw [Catalog.run_regexReplace hp hpattern htemplate,
    Pattern.Compiled.replace_eq_ok_iff.mpr ⟨es, hes, rfl⟩]
  exact ⟨_, rfl⟩

/-- A group by name and by padded number, one in another script, and one that took no part. -/
theorem references_expand_scripts :
    let template := "$x$001$\x7b2\x7d$\u0661$\u00b2.$"
    let bag : Arguments := ⟨[("pattern", .text "(?P<x>a)|(b)"), ("replacement", .text template)]⟩
    ∃ p, Pattern.compile [] "(?P<x>a)|(b)" = .ok p ∧
      (∀ (text : Array Char) (m : Pattern.Match), ∃ ps es, Pattern.Spells template.toList ps ∧
        List.Forall₂ (p.Contributes text m) ps es ∧
          p.expand text template.toList m = .ok es.flatten) ∧
      (Catalog.regexReplace []).run bag (.text "ab") = .ok (.text "aa.$b.$") := by
  intro template bag
  obtain ⟨p, hp⟩ := exists_of_isOk (x := Pattern.compile [] "(?P<x>a)|(b)") (by decide +kernel)
  have hparts : Pattern.parts template.toList =
      [.group ['x'], .group ['0', '0', '1'], .group ['2'], .group ['\u0661'], .group ['\u00b2'],
        .literal '.', .literal '$'] := by decide +kernel
  obtain ⟨ps, hps, hshort, -⟩ := references_expand hp template
  have hall : ∀ name, Pattern.Part.group name ∈ ps → ¬ Pattern.TooLong name := by
    rintro name hname ⟨-, hlong⟩
    rw [← Pattern.parts_eq_iff.mpr hps, hparts] at hname
    simp only [List.mem_cons, Pattern.Part.group.injEq, reduceCtorEq, List.not_mem_nil,
      or_false] at hname
    rcases hname with rfl | rfl | rfl | rfl | rfl <;> simp at hlong
  refine ⟨p, hp, fun text m => ?_, by decide +kernel⟩
  obtain ⟨es, hes, hexpand⟩ := (hshort hall).1 text m
  exact ⟨ps, es, hps, hes, hexpand⟩

/-- A number of 4301 zeros is the whole match, but it is not converted, and the failure is not one
that a dish takes up. -/
theorem long_reference_is_not_converted :
    let name := List.replicate 4301 '0'
    let bag : Arguments :=
      ⟨[("pattern", .text "a"), ("replacement", .text (String.ofList ('$' :: name)))]⟩
    Numeral.Denotes 10 name 0 ∧
      (Catalog.regexReplace []).run bag (.text "a") = .error (.escape (.tooManyDigits 4301)) := by
  intro name bag
  have hdenotes : Numeral.Denotes 10 name 0 := Pattern.denotes_zeros 4301
  have hlong : Pattern.TooLong name := ⟨⟨0, hdenotes⟩, by rw [List.length_replicate]; decide⟩
  have hspells : Pattern.Spells ('$' :: name) [.group name] := by
    have hname : ∀ c ∈ name, Text.isWord c = true := fun c hc => by
      rw [List.eq_of_mem_replicate hc]
      decide +kernel
    have hreference : Pattern.Reference (name ++ []) name [] :=
      .bare (List.cons_ne_nil _ _) hname (by simp)
    rw [List.append_nil] at hreference
    exact .reference hreference .nil
  refine ⟨hdenotes, ?_⟩
  have hcut : (Pattern.compile [] "a").toOption.any
      (fun p => !(p.matchesIn #['a']).isEmpty) = true := by
    decide +kernel
  obtain ⟨p, hp⟩ := exists_of_isOk (x := Pattern.compile [] "a") (by decide +kernel)
  rw [hp] at hcut
  change (!(p.matchesIn "a".toList.toArray).isEmpty) = true at hcut
  have hmatches : p.matchesIn "a".toList.toArray ≠ [] := by simpa using hcut
  rw [Catalog.run_regexReplace hp rfl rfl, String.toList_ofList,
    p.replace_eq_error hmatches fun m => p.expand_of_tooLong _ m hspells hlong,
    List.length_replicate]
  rfl

end Bakehouse
