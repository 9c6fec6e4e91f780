import Bakehouse.Proofs.ReadingBack

namespace Bakehouse

namespace Lexer

/-- Blanks and comments that go on up to the end of their line, so that anything may follow. -/
inductive Separator : List Char → Prop
  | nil : Separator []
  | blank {c : Char} {g : List Char} (hc : Text.isBlank c = true) (hg : Separator g) :
      Separator (c :: g)
  | comment {body g : List Char} (hbody : '\n' ∉ body) (hg : Separator g) :
      Separator (';' :: (body ++ '\n' :: g))

theorem Separator.gap {g : List Char} (hg : Separator g) (after : List Char) : Gap after g := by
  induction hg with
  | nil => exact .nil
  | blank hc _ ih => exact .blank hc ih
  | comment hbody _ ih => exact .comment hbody (by simp) (.blank (by decide) ih)

theorem ne_of_isBlank {c d : Char} (hc : Text.isBlank c = true) (hd : Text.isBlank d = false) :
    c ≠ d := by
  rintro rfl
  rw [hc] at hd
  cases hd

/-- An atom ends where a separator starts, and no literal does. -/
theorem Separator.endsBefore {g : List Char} (hg : Separator g) (hne : g ≠ []) (t : Token)
    (cs : List Char) : t.EndsBefore (g ++ cs) := by
  rintro - c hc
  cases hg with
  | nil => exact absurd rfl hne
  | blank hblank _ =>
      obtain rfl := Option.mem_some_iff.mp hc
      refine ⟨by simp [isDelimiter, hblank], fun _ => ⟨?_, ?_⟩⟩
      · exact ne_of_isBlank hblank (by decide)
      · exact ne_of_isBlank hblank (by decide)
  | comment _ _ =>
      obtain rfl := Option.mem_some_iff.mp hc
      exact ⟨by decide, fun _ => ⟨by decide, by decide⟩⟩

/-- The text that starts with `before` and in which every token is followed by its separator. -/
def laidOut (before : List Char) (ps : List (Token × List Char)) : List Char :=
  before ++ ps.flatMap fun p => p.1.text ++ p.2

theorem laidOut_cons (before : List Char) (p : Token × List Char) (ps : List (Token × List Char)) :
    laidOut before (p :: ps) = before ++ (p.1.text ++ laidOut p.2 ps) := by
  simp [laidOut]

theorem tiles_laidOut {before : List Char} (hbefore : Separator before)
    {ps : List (Token × List Char)} (hps : ∀ p ∈ ps, p.1.Spelled ∧ Separator p.2)
    (hapart : ∀ p ∈ ps.dropLast, p.2 ≠ []) : Tiles (ps.map (·.1)) (laidOut before ps) [] := by
  induction ps generalizing before with
  | nil => exact .done (hbefore.gap [])
  | cons p ps ih =>
      obtain ⟨⟨ht, hg⟩, hrest⟩ := List.forall_mem_cons.mp hps
      rw [laidOut_cons]
      cases ps with
      | nil =>
          refine .token (hbefore.gap _) ht ?_ (ih hg hrest (by simp))
          by_cases hne : p.2 = []
          · simp [laidOut, hne, Token.EndsBefore]
          · exact hg.endsBefore hne p.1 _
      | cons q qs =>
          rw [List.dropLast_cons_cons, List.forall_mem_cons] at hapart
          exact .token (hbefore.gap _) ht (hg.endsBefore hapart.1 p.1 _) (ih hg hrest hapart.2)

end Lexer

open Lexer

theorem writes_spaced {ts : List Token} (hts : ∀ t ∈ ts, t.Spelled) :
    Writes (" ".intercalate (ts.map fun t => String.ofList t.text)).toList ts := by
  induction ts with
  | nil => exact .nil
  | cons t ts ih =>
      obtain ⟨ht, hrest⟩ := List.forall_mem_cons.mp hts
      cases ts with
      | nil => simpa using Writes.token ht
      | cons u us =>
          rw [List.map_cons, List.map_cons, String.intercalate_cons_cons, String.toList_append,
            String.toList_append, List.append_assoc, String.toList_ofList]
          exact (Writes.token ht).spaced (ih hrest)

/-- Whatever stands between tokens, before the first and after the last, the lexer gives the tokens
and does not fail. In particular the tokens of a text can be written again with single spaces. -/
theorem layout_makes_no_difference :
    (∀ (before : List Char) (ps : List (Token × List Char)), Separator before →
      (∀ p ∈ ps, p.1.Spelled ∧ Separator p.2) → (∀ p ∈ ps.dropLast, p.2 ≠ []) →
      lex (String.ofList (laidOut before ps)) = ⟨ps.map (·.1), none⟩) ∧
    ∀ source : String,
      lex (" ".intercalate ((lex source).ready.map fun t => String.ofList t.text)) =
        ⟨(lex source).ready, none⟩ := by
  refine ⟨fun before ps hbefore hps hapart => ?_, fun source => ?_⟩
  · refine lex_eq_of_tiles (?_ : Tiles _ _ []) .finish
    rw [String.toList_ofList]
    exact tiles_laidOut hbefore hps hapart
  · exact (writes_spaced (spelled_lex source)).lex_eq

/-- A `d` before a comment that opens literals, a quote before a space, a dish literal with a
semicolon in it, and nothing after the last token. -/
theorem layout_makes_no_difference_comment :
    let before : List Char := [';', ')', '\n']
    let ps : List (Token × List Char) :=
      [(⟨.atom, ['d']⟩, [';', '"', '[', '\n']), (⟨.quote, ['\'']⟩, [' ']),
        (⟨.literal .dishText, ['d', '"', 'a', ';', '"']⟩, ['\t', '\n']),
        (⟨.literal .vector, ['[', '1', ']']⟩, [])]
    Separator before ∧ (∀ p ∈ ps, p.1.Spelled ∧ Separator p.2) ∧ (∀ p ∈ ps.dropLast, p.2 ≠ []) ∧
      lex ";)\nd;\"[\n' d\"a;\"\t\n[1]" = ⟨ps.map (·.1), none⟩ := by
  intro before ps
  have hbefore : Separator before := .comment (by decide : '\n' ∉ [')']) .nil
  have hletter : (⟨.atom, ['d']⟩ : Token).Spelled := Token.spelled_atom_iff.mpr (by decide)
  have hdish : Enclosure.dishText.close ∉ ['a', ';'] := by decide
  have hvector : Enclosure.vector.close ∉ ['1'] := by decide
  have hps : ∀ p ∈ ps, p.1.Spelled ∧ Separator p.2 := by
    simp only [ps, List.forall_mem_cons]
    refine ⟨⟨hletter, .comment (by decide : '\n' ∉ ['"', '[']) .nil⟩,
      ⟨.quote, .blank (by decide) .nil⟩,
      ⟨.literal .dishText hdish, .blank (by decide) (.blank (by decide) .nil)⟩,
      ⟨.literal .vector hvector, .nil⟩, by simp⟩
  have hapart : ∀ p ∈ ps.dropLast, p.2 ≠ [] := by decide
  have htext : String.ofList (laidOut before ps) = ";)\nd;\"[\n' d\"a;\"\t\n[1]" := by
    decide +kernel
  refine ⟨hbefore, hps, hapart, ?_⟩
  rw [← htext]
  exact layout_makes_no_difference.1 before ps hbefore hps hapart

end Bakehouse
