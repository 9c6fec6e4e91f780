import Bakehouse.Proofs.EntryPoints

namespace Bakehouse

namespace Form

theorem moved_eq_of_byte {literal : Enclosure} {item : List Char} {e : ReadError}
    (h : byte literal item = .error e) (n : Nat) : e.moved n = e := by
  simp only [byte] at h
  split at h
  · cases h
    rfl
  split at h
  · cases h
    rfl
  split at h
  · cases h
    rfl
  · cases h

theorem moved_eq_of_bytes {literal : Enclosure} {cs : List Char} {e : ReadError}
    (h : bytes literal cs = .error e) (n : Nat) : e.moved n = e := by
  unfold bytes at h
  split at h
  · cases h
  · obtain ⟨_, item, _, _, _, hitem⟩ := mapM_eq_error_iff.mp h
    exact moved_eq_of_byte hitem n

theorem moved_eq_of_literal {enclosure : Enclosure} {cs : List Char} {e : ReadError}
    (h : ofLiteral enclosure cs = .error e) (n : Nat) : e.moved n = e := by
  cases enclosure with
  | text => cases h
  | dishText => cases h
  | dishBytes => exact moved_eq_of_bytes (error_of_map h) n
  | vector => exact moved_eq_of_bytes (error_of_map h) n

theorem moved_eq_of_atom {cs : List Char} {e : ReadError} (h : ofAtom cs = .error e) (n : Nat) :
    e.moved n = e := by
  unfold ofAtom at h
  split at h
  · cases h
  split at h
  · cases h
  split at h
  · cases h
  split at h
  · cases h
    rfl
  split at h
  · cases h
    rfl
  · cases h

end Form

namespace Parser

/-- The parser makes no errors that name a place. -/
theorem moved_eq_of_feed {stack : List Unfinished} {t : Token} {e : ReadError}
    (h : feed stack t = .error e) (n : Nat) : e.moved n = e := by
  unfold feed at h
  split at h
  · cases h
  · split at h
    · cases h
    · cases h
      rfl
  · cases h
  · exact Form.moved_eq_of_literal (error_of_map h) n
  · exact Form.moved_eq_of_atom (error_of_map h) n
  · cases h
    rfl

theorem forms_moved (n : Nat) (failure : Option ReadError) (stack : List Unfinished)
    (ts : List Token) :
    (forms (failure.map (.moved n)) stack ts).forms = (forms failure stack ts).forms ∧
      (forms (failure.map (.moved n)) stack ts).error =
        (forms failure stack ts).error.map (.moved n) := by
  induction ts generalizing stack with
  | nil =>
      refine ⟨rfl, ?_⟩
      rcases failure with _ | e
      · rcases stack with _ | ⟨_ | _, below⟩ <;> rfl
      · rfl
  | cons t ts ih =>
      cases hfeed : feed stack t with
      | error e =>
          simp only [forms, hfeed, Option.map_some, moved_eq_of_feed hfeed, and_self]
      | ok progress =>
          cases progress with
          | done f =>
              obtain ⟨hforms, herror⟩ := ih []
              simp only [forms, hfeed, hforms, herror, and_self]
          | more next =>
              simp only [forms, hfeed]
              exact ih next

end Parser

theorem readAll_append_lineFeed {source : String} (h : (readAll source).2 = none)
    (later : String) :
    readAll (source ++ "\n" ++ later) =
      ((readAll source).1 ++ (readAll later).1,
        (readAll later).2.map (.moved (source.length + 1))) := by
  obtain ⟨hlex, hforms⟩ := readAll_eq_iff.mp (Prod.ext rfl h : readAll source = (_, none))
  have hall : (lex (source ++ "\n" ++ later)).forms =
      ((lex later).moved (source.length + 1)).forms.preceded (readAll source).1 := by
    rw [lex_append_lineFeed hlex]
    exact Parser.forms_deriveAll hforms _
  obtain ⟨hlater, herror⟩ :=
    Parser.forms_moved (source.length + 1) (lex later).failure [] (lex later).ready
  simp only [readAll, hall]
  exact Prod.ext (congrArg ((lex source).forms.forms ++ ·) hlater) herror

theorem runForms_append (eval : Value → Run Value) (last : Option Value) (fs gs : List Form)
    (error : Option ReadError) :
    runForms eval last (fs ++ gs) error =
      (do runForms eval (← runForms eval last fs none) gs error) := by
  induction fs generalizing last with
  | nil => simp only [List.nil_append, runForms, pure_bind]
  | cons f fs ih => simp only [List.cons_append, runForms, bind_assoc, ih]

theorem runForms_last (eval : Value → Run Value) (last : Option Value) (fs : List Form)
    (error : Option ReadError) :
    runForms eval last fs error =
      (do
        let v ← runForms eval none fs error
        return if fs.isEmpty then last else v) := by
  cases fs with
  | nil => cases error <;> rfl
  | cons f fs => simp [runForms]

theorem runForms_error (eval : Value → Run Value) (last : Option Value) (fs : List Form)
    (e : ReadError) :
    runForms eval last fs (some e) =
      (do
        let _ ← runForms eval last fs none
        raise (.reading e)) := by
  induction fs generalizing last with
  | nil => rfl
  | cons f fs ih => simp only [runForms, ih, bind_assoc]

/-- Evaluates forms one after the other in the base frame. -/
def evalForms (fuel : Nat) (fs : List Form) : Run (Option Value) :=
  runForms (fun v => evaluate fuel v baseFrame) none fs none

theorem evalText_eq (fuel : Nat) (source : String) :
    evalText fuel source =
      runForms (fun v => evaluate fuel v baseFrame) none (readAll source).1 (readAll source).2 :=
  rfl

theorem evalText_of_error {source : String} {e : ReadError} (h : (readAll source).2 = some e)
    (fuel : Nat) :
    evalText fuel source =
      (do
        let _ ← evalForms fuel (readAll source).1
        raise (.reading e)) := by
  rw [evalText_eq, h]
  exact runForms_error _ _ _ _

/-- The second text is run with its error moved. -/
theorem evalText_append_lineFeed {source : String} (h : (readAll source).2 = none)
    (later : String) (fuel : Nat) :
    evalText fuel (source ++ "\n" ++ later) =
      (do
        let v ← evalText fuel source
        let w ← runForms (fun v => evaluate fuel v baseFrame) none (readAll later).1
          ((readAll later).2.map (.moved (source.length + 1)))
        return if (readAll later).1.isEmpty then v else w) := by
  rw [evalText_eq, readAll_append_lineFeed h, runForms_append, evalText_eq, h]
  refine congrArg _ (funext fun v => ?_)
  rw [runForms_last]

theorem moved_eq_self {n : Nat} {e : ReadError} (h : ∀ c place, e ≠ .unexpectedCharacter c place) :
    e.moved n = e := by
  cases e with
  | unexpectedCharacter c place => exact absurd rfl (h c place)
  | _ => rfl

/-- A text that can be read, a line feed and any other text are read and run one after the other: the
forms come in a row, what the forms do comes in a row, and nothing is seen of an error of the second
text before the first one has been run. The error is the same too, except that one about an unexpected
character names the place in the whole text. -/
theorem concatenation_is_sequential {source : String} (h : (readAll source).2 = none)
    (later : String) :
    readAll (source ++ "\n" ++ later) =
        ((readAll source).1 ++ (readAll later).1,
          (readAll later).2.map (.moved (source.length + 1))) ∧
      ((∀ c place, (readAll later).2 ≠ some (.unexpectedCharacter c place)) →
        (readAll (source ++ "\n" ++ later)).2 = (readAll later).2 ∧
        ∀ fuel : Nat, evalText fuel (source ++ "\n" ++ later) =
          (do
            let v ← evalText fuel source
            let w ← evalText fuel later
            return if (readAll later).1.isEmpty then v else w)) ∧
      ∀ c place, (readAll later).2 = some (.unexpectedCharacter c place) →
        (readAll (source ++ "\n" ++ later)).2 =
          some (.unexpectedCharacter c (source.length + 1 + place)) ∧
        ∀ fuel : Nat,
          evalText fuel later =
            (do
              let _ ← evalForms fuel (readAll later).1
              raise (.reading (.unexpectedCharacter c place))) ∧
          evalText fuel (source ++ "\n" ++ later) =
            (do
              let _ ← evalText fuel source
              let _ ← evalForms fuel (readAll later).1
              raise (.reading (.unexpectedCharacter c (source.length + 1 + place)))) := by
  have hread := readAll_append_lineFeed h later
  refine ⟨hread, fun hplace => ?_, fun c place herror => ?_⟩
  · have hmoved : (readAll later).2.map (.moved (source.length + 1)) = (readAll later).2 := by
      cases herror : (readAll later).2 with
      | none => rfl
      | some e =>
          rw [Option.map_some, moved_eq_self fun c place he => hplace c place (by rw [herror, he])]
    refine ⟨by rw [hread, hmoved], fun fuel => ?_⟩
    rw [evalText_append_lineFeed h, hmoved]
    rfl
  · have hmoved : (readAll (source ++ "\n" ++ later)).2 =
        some (.unexpectedCharacter c (source.length + 1 + place)) := by
      rw [hread, herror]
      rfl
    refine ⟨hmoved, fun fuel => ⟨evalText_of_error herror fuel, ?_⟩⟩
    rw [evalText_append_lineFeed h, herror]
    refine congrArg _ (funext fun v => ?_)
    rw [Option.map_some, ReadError.moved, runForms_error, bind_assoc]
    rfl

/-- After a text that ends in a comment: a stray bracket, whose place moves, and an open parenthesis. -/
theorem concatenation_is_sequential_comment :
    (readAll "x ; (").2 = none ∧
      (readAll "y ]").2 = some (.unexpectedCharacter ']' 2) ∧
      (readAll ("x ; (" ++ "\n" ++ "y ]")).2 = some (.unexpectedCharacter ']' 8) ∧
      (readAll "y (").2 = some .unclosed ∧
      (readAll ("x ; (" ++ "\n" ++ "y (")).2 = some .unclosed := by
  have h : (readAll "x ; (").2 = none := by decide +kernel
  have hbracket : (readAll "y ]").2 = some (.unexpectedCharacter ']' 2) := by decide +kernel
  have hunclosed : (readAll "y (").2 = some .unclosed := by decide +kernel
  obtain ⟨_, _, hmoved⟩ := concatenation_is_sequential h "y ]"
  obtain ⟨_, hsame, _⟩ := concatenation_is_sequential h "y ("
  have hplace : ∀ c place, (readAll "y (").2 ≠ some (.unexpectedCharacter c place) := by
    rw [hunclosed]
    nofun
  exact ⟨h, hbracket, (hmoved _ _ hbracket).1, hunclosed, (hsame hplace).1.trans hunclosed⟩

/-- The place of a stray bracket is another one in the whole text than in the second text alone. -/
theorem place_counts_from_the_start :
    (readAll "").2 = none ∧
      (readAll "]").2.map ReadError.message = some "unexpected character ']' at 0" ∧
      (readAll ("" ++ "\n" ++ "]")).2.map ReadError.message =
        some "unexpected character ']' at 1" := by
  decide +kernel

end Bakehouse
