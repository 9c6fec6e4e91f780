import Bakehouse.Proofs.Comparison.Evaluator
import Bakehouse.Proofs.Grammar
import Bakehouse.Proofs.Limits.Pattern
import Bakehouse.Proofs.Rotation

namespace Bakehouse

/-- The errors that the language knows nothing of and that a program can run into. -/
inductive Error.IsLimit : Error → Prop where
  | byte {n : Nat} (h : Numeral.maxDigits < n) : IsLimit (.reading (.escape (.tooManyDigits n)))
  | operation {e : Escape} (h : e.IsLimit) : IsLimit (.escape e)

def Error.Foreseen (e : Error) : Prop :=
  e.isRecoverable = true ∨ e.IsLimit

theorem Error.IsLimit.not_isRecoverable {e : Error} (h : e.IsLimit) : e.isRecoverable = false := by
  cases h <;> rfl

/-- An error that comes up in the computation has the property. -/
def ErrorsIn {ε α : Type} (P : ε → Prop) (r : Except ε α) : Prop :=
  ∀ e, r = .error e → P e

namespace ErrorsIn

variable {ε α β : Type} {P : ε → Prop}

theorem ok (a : α) : ErrorsIn P (.ok a) := by
  intro e h
  cases h

theorem error {e : ε} (he : P e) : ErrorsIn P (.error e : Except ε α) := by
  intro e' h
  cases h
  exact he

theorem bind {r : Except ε α} {k : α → Except ε β} (hr : ErrorsIn P r) (hk : ∀ a, ErrorsIn P (k a)) :
    ErrorsIn P (r >>= k) := by
  cases r with
  | error e => exact error (hr e rfl)
  | ok a => exact hk a

theorem map {r : Except ε α} (f : α → β) (hr : ErrorsIn P r) : ErrorsIn P (r.map f) := by
  cases r with
  | error e => exact error (hr e rfl)
  | ok a => exact ok (f a)

theorem mapM {f : α → Except ε β} (hf : ∀ a, ErrorsIn P (f a)) (as : List α) :
    ErrorsIn P (as.mapM f) := by
  induction as with
  | nil => exact ok []
  | cons a as ih =>
      rw [List.mapM_cons]
      exact (hf a).bind fun b => ih.bind fun bs => ok (b :: bs)

end ErrorsIn

def ReadError.Foreseen (e : ReadError) : Prop :=
  (Error.reading e).Foreseen

namespace Form

theorem errorsIn_byte (enclosure : Enclosure) (item : List Char) :
    ErrorsIn ReadError.Foreseen (byte enclosure item) := by
  unfold byte
  split
  · exact .error (.inl rfl)
  split
  · exact .error (.inr (.byte ‹_›))
  · simp only
    split
    · exact .error (.inl rfl)
    · exact .ok _

theorem errorsIn_bytes (enclosure : Enclosure) (cs : List Char) :
    ErrorsIn ReadError.Foreseen (bytes enclosure cs) := by
  unfold bytes
  split
  · exact .ok _
  · exact .mapM (errorsIn_byte enclosure) _

theorem errorsIn_ofLiteral (enclosure : Enclosure) (cs : List Char) :
    ErrorsIn ReadError.Foreseen (ofLiteral enclosure cs) := by
  cases enclosure with
  | text => exact .ok _
  | dishText => exact .ok _
  | dishBytes => exact (errorsIn_bytes _ _).map _
  | vector => exact (errorsIn_bytes _ _).map _

/-- Only the empty word would be trouble, and the lexer finds none. -/
theorem errorsIn_ofAtom {cs : List Char} (hcs : cs ≠ []) :
    ErrorsIn ReadError.Foreseen (ofAtom cs) := by
  unfold ofAtom
  split
  · exact .ok _
  split
  · exact .ok _
  split
  · exact .ok _
  · cases cs with
    | nil => exact absurd rfl hcs
    | cons c rest =>
        simp only
        split
        · exact .error (.inl rfl)
        · exact .ok _

end Form

namespace Parser

theorem errorsIn_feed (stack : List Unfinished) {t : Token} (ht : t.text ≠ []) :
    ErrorsIn ReadError.Foreseen (feed stack t) := by
  unfold feed
  split
  · exact .ok _
  · split
    · exact .ok _
    · exact .error (.inl rfl)
  · exact .ok _
  · exact (Form.errorsIn_ofLiteral _ _).map _
  · exact (Form.errorsIn_ofAtom ht).map _
  · exact .error (.inl rfl)

theorem foreseen_missing (stack : List Unfinished) : (missing stack).Foreseen := by
  rcases stack with _ | ⟨_ | _, _⟩
  · exact .inl rfl
  · exact .inl rfl
  · exact .inl rfl

variable {failure : Option ReadError} {ts : List Token}

theorem errorsIn_form (hfailure : ∀ e, failure = some e → e.Foreseen)
    (hts : ∀ t ∈ ts, t.text ≠ []) (stack : List Unfinished) :
    ErrorsIn ReadError.Foreseen (form failure stack ts).1 := by
  induction ts generalizing stack with
  | nil =>
      cases failure with
      | none => exact .error (foreseen_missing stack)
      | some e => exact .error (hfailure e rfl)
  | cons t ts ih =>
      simp only [List.forall_mem_cons] at hts
      have hfeed := errorsIn_feed stack hts.1
      simp only [form]
      split
      · exact .error (hfeed _ ‹_›)
      · exact .ok _
      · exact ih hts.2 _

theorem failure_of_form {stack : List Unfinished} {e : ReadError}
    (h : (form failure stack ts).2.failure = some e) : failure = some e := by
  induction ts generalizing stack with
  | nil => cases h
  | cons t ts ih =>
      simp only [form] at h
      split at h
      · exact h
      · exact h
      · exact ih h

theorem foreseen_of_forms (hfailure : ∀ e, failure = some e → e.Foreseen)
    (hts : ∀ t ∈ ts, t.text ≠ []) (stack : List Unfinished) {e : ReadError}
    (h : (forms failure stack ts).error = some e) : e.Foreseen := by
  induction ts generalizing stack with
  | nil =>
      cases failure with
      | none =>
          cases stack with
          | nil => cases h
          | cons top below =>
              cases h
              exact foreseen_missing _
      | some e' =>
          cases h
          exact hfailure e rfl
  | cons t ts ih =>
      simp only [List.forall_mem_cons] at hts
      have hfeed := errorsIn_feed stack hts.1
      simp only [forms] at h
      split at h
      · cases h
        exact hfeed _ ‹_›
      · exact ih hts.2 [] h
      · exact ih hts.2 _ h

end Parser

theorem foreseen_of_lex {source : String} (e : ReadError) (h : (lex source).failure = some e) :
    e.Foreseen := by
  obtain ⟨rest, _, hstops⟩ := exists_tiles_lex source
  rw [h] at hstops
  cases hstops with
  | unterminated enclosure hbody => exact .inl rfl
  | bracket rest => exact .inl rfl

theorem text_ne_nil_of_lex {source : String} (t : Token) (ht : t ∈ (lex source).ready) :
    t.text ≠ [] :=
  (Token.Lexed.spelled ⟨source, ht⟩).text_ne_nil

theorem errorsIn_read (source : String) : ErrorsIn ReadError.Foreseen (read source) := by
  have hform : ErrorsIn ReadError.Foreseen (lex source).form.1 :=
    Parser.errorsIn_form foreseen_of_lex text_ne_nil_of_lex []
  have hrest : ∀ e, (lex source).form.2.failure = some e → e.Foreseen := fun e he =>
    foreseen_of_lex e (Parser.failure_of_form he)
  have hparse : ErrorsIn ReadError.Foreseen (lex source).parse := by
    unfold Tokens.parse
    split
    · exact .error (hform _ (congrArg Prod.fst ‹_›))
    · rename_i heq
      rw [heq] at hrest
      refine .map _ ?_
      unfold Tokens.drain
      split
      · exact .error (hrest _ ‹_›)
      · exact .ok _
  unfold read
  split
  · exact .error (hparse _ ‹_›)
  · exact .ok _
  · exact .error (.inl rfl)

theorem foreseen_of_readAll {source : String} {e : ReadError} (h : (readAll source).2 = some e) :
    e.Foreseen :=
  Parser.foreseen_of_forms foreseen_of_lex text_ne_nil_of_lex [] h

def Trouble.Foreseen : Trouble → Prop
  | .fault _ => True
  | .escape e => e.IsLimit

theorem errorsIn_liftFault {α : Type} (r : Except Fault α) :
    ErrorsIn Trouble.Foreseen (liftFault r) := by
  cases r with
  | error f => exact .error trivial
  | ok a => exact .ok a

theorem errorsIn_liftEscape {α : Type} {r : Except Escape α} (hr : ErrorsIn Escape.IsLimit r) :
    ErrorsIn Trouble.Foreseen (liftEscape r) := by
  cases r with
  | error e => exact .error (hr e rfl)
  | ok a => exact .ok a

theorem errorsIn_compilePattern (characters : Pattern.CharacterNames) (text : String) :
    ErrorsIn Trouble.Foreseen (compilePattern characters text) := by
  unfold compilePattern
  split
  · exact .ok _
  · exact .error trivial
  · exact .error (Pattern.isLimit_of_compile ‹_›)

namespace Pattern.Compiled

variable (p : Compiled)

theorem errorsIn_groupNumber (name : List Char) :
    ErrorsIn Escape.IsLimit (p.groupNumber name) := by
  unfold groupNumber
  split
  · split
    · exact .error (.digits ‹_›)
    · exact .ok _
  · exact .ok _

theorem errorsIn_expand (text : Array Char) (template : List Char) (m : Match) :
    ErrorsIn Escape.IsLimit (p.expand text template m) := by
  refine .map _ (.mapM (fun part => ?_) _)
  cases part with
  | literal c => exact .ok _
  | group name => exact (p.errorsIn_groupNumber name).map _

theorem errorsIn_replace (template cs : List Char) :
    ErrorsIn Escape.IsLimit (p.replace template cs) :=
  .map _ (.mapM (fun _ => p.errorsIn_expand _ template _) _)

end Pattern.Compiled

/-- Two operations of the catalog can come to a limit. -/
theorem Catalog.errorsIn_run (op : Catalog) (bag : Arguments) (p : Payload) :
    ErrorsIn Trouble.Foreseen (op.run bag p) := by
  cases op with
  | regexMatch characters =>
      refine (errorsIn_liftFault _).bind fun text => ?_
      refine (errorsIn_compilePattern characters text).bind fun q => ?_
      exact (errorsIn_liftFault _).bind fun cs => .ok _
  | regexReplace characters =>
      refine (errorsIn_liftFault _).bind fun text => ?_
      refine (errorsIn_compilePattern characters text).bind fun q => ?_
      refine (errorsIn_liftFault _).bind fun template => (errorsIn_liftFault _).bind fun cs => ?_
      exact (errorsIn_liftEscape (q.errorsIn_replace _ cs)).bind fun ds => .ok _
  | rot13 =>
      refine (errorsIn_liftFault _).bind fun n => ?_
      rw [Payload.rotate_eq]
      exact .ok _
  | reverse => exact .ok _
  | toBase64 => exact .ok _
  | toDecimal => exact .ok _
  | toOctal => exact .ok _
  | toHex => exact .ok _
  | toBinary => exact .ok _
  | _ => exact errorsIn_liftFault _

end Bakehouse
