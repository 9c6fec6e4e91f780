import Bakehouse.Language.Interpreter
import Bakehouse.Proofs.AdjoiningTexts
import Bakehouse.Proofs.Grammar

namespace Bakehouse

namespace Parser

variable {failure : Option ReadError} {stack next : List Unfinished} {ts : List Token}

theorem ne_nil_of_complete {f : Form} (h : complete stack f = .more next) : next ≠ [] := by
  induction stack generalizing f with
  | nil => cases h
  | cons top stack ih =>
      cases top with
      | quote => exact ih h
      | list reversed =>
          cases h
          simp

theorem ne_nil_of_feed {t : Token} (h : feed stack t = .ok (.more next)) : next ≠ [] := by
  unfold feed at h
  split at h
  · cases h
    simp
  · split at h
    · exact ne_nil_of_complete (Except.ok.inj h)
    · cases h
  · cases h
    simp
  · obtain ⟨f, _, hf⟩ := exists_of_map h
    exact ne_nil_of_complete hf
  · obtain ⟨f, _, hf⟩ := exists_of_map h
    exact ne_nil_of_complete hf
  · cases h

/-- At the end of the tokens there may be no form left, which is an error only where one is wanted. -/
theorem error_forms_of_form_error {e : ReadError} {later : Tokens}
    (h : form failure stack ts = (.error e, later)) (hne : stack ≠ [] ∨ ts ≠ []) :
    (forms failure stack ts).error = some e := by
  induction ts generalizing stack with
  | nil =>
      obtain ⟨top, below, rfl⟩ := List.exists_cons_of_ne_nil (hne.resolve_right fun h => h rfl)
      cases h
      cases failure <;> rfl
  | cons t ts ih =>
      cases hfeed : feed stack t with
      | error e' =>
          rw [form, hfeed] at h
          cases h
          rw [forms, hfeed]
      | ok progress =>
          rw [form_cons hfeed] at h
          rw [forms, hfeed]
          cases progress with
          | done g => cases h
          | more next => exact ih h (.inl (ne_nil_of_feed hfeed))

theorem forms_deriveAll {ps : List Token} {fs : List Form} :
    DeriveAll ps fs → ∀ ts : List Token,
      forms failure [] (ps ++ ts) = (forms failure [] ts).preceded fs
  | .nil, _ => rfl
  | @DeriveAll.cons p ps f fs h hs, ts => by
      have hform : form failure [] (p ++ (ps ++ ts)) = (.ok f, ⟨ps ++ ts, failure⟩) :=
        form_derives h [] _
      rw [List.append_assoc, forms_of_form hform, forms_deriveAll hs]
      rfl

theorem forms_eq_iff (hts : ∀ t ∈ ts, t.Spelled) {fs : List Form} :
    (forms failure [] ts).forms = fs ∧ (forms failure [] ts).error = none ↔
      failure = none ∧ DeriveAll ts fs := by
  constructor
  · rintro ⟨hforms, herror⟩
    obtain ⟨ps, rest, rfl, hps⟩ : ∃ ps rest, ts = ps ++ rest ∧ DeriveAll ps fs :=
      hforms ▸ deriveAll_forms hts
    rw [forms_deriveAll hps] at hforms herror
    have hnone : (forms failure [] rest).forms = [] := List.append_right_eq_self.mp hforms
    -- No form starts in the rest, and nothing is wrong with it, so there is no rest.
    rcases hform : form failure [] rest with ⟨e | f, later⟩
    · rcases rest with _ | ⟨t, rest⟩
      · rw [List.append_nil]
        cases failure with
        | none => exact ⟨rfl, hps⟩
        | some e => cases herror
      · have hsome := error_forms_of_form_error hform (.inr (by simp))
        cases hsome.symm.trans herror
    · rw [forms_of_form hform] at hnone
      cases hnone
  · rintro ⟨rfl, h⟩
    have hforms : forms none [] (ts ++ []) = (forms none [] []).preceded fs := forms_deriveAll h []
    rw [List.append_nil] at hforms
    rw [hforms]
    exact ⟨List.append_nil fs, rfl⟩

end Parser

theorem readAll_eq_iff {source : String} {fs : List Form} :
    readAll source = (fs, none) ↔
      (lex source).failure = none ∧ DeriveAll (lex source).ready fs := by
  rw [← Parser.forms_eq_iff (spelled_lex source)]
  exact Prod.ext_iff

theorem deriveAll_singleton_iff {p : List Token} {f : Form} : DeriveAll p [f] ↔ Derives p f := by
  constructor
  · intro h
    cases h with
    | cons h hs =>
        cases hs
        rwa [List.append_nil]
  · intro h
    have hs := DeriveAll.cons h .nil
    rwa [List.append_nil] at hs

theorem Derives.of_lparen {ts : List Token} {f : Form} (h : Derives (⟨.lparen, ['(']⟩ :: ts) f) :
    ∃ ps fs, ts = ps ++ [⟨.rparen, [')']⟩] ∧ f = .list fs ∧ DeriveAll ps fs := by
  cases h with
  | list h => exact ⟨_, _, rfl, rfl, h⟩

theorem derives_enclosed_iff {ps : List Token} {fs : List Form} :
    Derives (⟨.lparen, ['(']⟩ :: (ps ++ [⟨.rparen, [')']⟩])) (.list fs) ↔ DeriveAll ps fs := by
  constructor
  · intro h
    obtain ⟨qs, _, hqs, ⟨⟩, hfs⟩ := h.of_lparen
    rwa [List.append_cancel_right hqs]
  · exact .list

theorem lex_enclosed_eq (source : String) :
    lex ("(" ++ source ++ "\n)") =
      Lexer.followed [⟨.lparen, ['(']⟩] (Lexer.run 1 .gap (source.toList ++ ['\n', ')'])) := by
  have htext : ("(" ++ source ++ "\n)").toList = '(' :: (source.toList ++ ['\n', ')']) := by simp
  rw [lex, htext]
  exact Lexer.run_cons rfl _

theorem run_one_eq (source : String) : Lexer.run 1 .gap source.toList = (lex source).moved 1 :=
  Lexer.run_moved 1 0 .gap source.toList

theorem lex_enclosed {source : String} (h : (lex source).failure = none) :
    lex ("(" ++ source ++ "\n)") =
      ⟨⟨.lparen, ['(']⟩ :: ((lex source).ready ++ [⟨.rparen, [')']⟩]), none⟩ := by
  have hrun := run_one_eq source
  have hfailure : (Lexer.run 1 .gap source.toList).failure = none := by
    rw [hrun, Tokens.moved, h]
    rfl
  rw [lex_enclosed_eq, Lexer.run_append_lineFeed hfailure, hrun]
  rfl

theorem failure_enclosed {source : String} (h : (lex source).failure ≠ none) :
    (lex ("(" ++ source ++ "\n)")).failure ≠ none := by
  have hfailure : (Lexer.run 1 .gap source.toList).failure ≠ none := by
    rw [run_one_eq]
    simpa [Tokens.moved] using h
  rw [lex_enclosed_eq]
  exact Lexer.failure_append hfailure fun e => by cases e <;> decide

theorem read_enclosed_iff {source : String} {fs : List Form} :
    read ("(" ++ source ++ "\n)") = .ok (.list fs) ↔
      (lex source).failure = none ∧ DeriveAll (lex source).ready fs := by
  rw [read_eq_ok_iff]
  by_cases h : (lex source).failure = none
  · rw [lex_enclosed h, derives_enclosed_iff]
    simp [h]
  · simp [h, failure_enclosed h]

theorem read_iff_readAll {source : String} {f : Form} :
    read source = .ok f ↔ readAll source = ([f], none) := by
  rw [read_eq_ok_iff, readAll_eq_iff, deriveAll_singleton_iff]

theorem evalText_of_read {source : String} {f : Form} (h : read source = .ok f) (fuel : Nat) :
    evalText fuel source = (do return some (← evalOne fuel source)) := by
  simp only [evalText, runSource, read_iff_readAll.mp h, runForms, evalOne, h, bind_assoc]

/-- The forms of a text are the items of the list that the text is in parentheses, and its one form if
there is only one; texts that cannot be read in one of these ways cannot be read in the others. To
run a text that is one form is to evaluate that form. -/
theorem entry_points_agree (source : String) :
    (∀ fs : List Form,
      readAll source = (fs, none) ↔ read ("(" ++ source ++ "\n)") = .ok (.list fs)) ∧
    ∀ f : Form, (read source = .ok f ↔ readAll source = ([f], none)) ∧
      (read source = .ok f →
        ∀ fuel : Nat, evalText fuel source = (do return some (← evalOne fuel source))) := by
  refine ⟨fun fs => ?_, fun f => ⟨read_iff_readAll, evalText_of_read⟩⟩
  rw [readAll_eq_iff, read_enclosed_iff]

/-- The parenthesis that is put behind the text does not become part of a comment at its end. -/
theorem entry_points_agree_comment :
    let d : Form := .symbol ⟨"d", by decide⟩
    read "d ; (" = .ok d ∧ readAll "d ; (" = ([d], none) ∧
      read ("(" ++ "d ; (" ++ "\n)") = .ok (.list [d]) := by
  intro d
  have hlex : lex "d ; (" = ⟨[⟨.atom, ['d']⟩], none⟩ := by decide +kernel
  have hread : read "d ; (" = .ok d := by
    rw [read_eq_ok_iff, hlex]
    exact ⟨rfl, .atom (Form.ofAtom_eq_symbol_iff.mpr (by decide +kernel))⟩
  obtain ⟨hlist, hone⟩ := entry_points_agree "d ; ("
  have hall := (hone d).1.mp hread
  exact ⟨hread, hall, (hlist [d]).mp hall⟩

end Bakehouse
