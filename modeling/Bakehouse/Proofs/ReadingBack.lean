import Bakehouse.Proofs.Comparison
import Bakehouse.Proofs.Grammar

namespace Bakehouse

open Lexer

/-- Values whose readable text spells them: strings hold no quote, and symbols are words that nothing
else is written as. -/
inductive Value.Plain : Value → Prop
  | boolean (b : Bool) : Plain (.boolean b)
  | text {s : String} (hs : '"' ∉ s.toList) : Plain (.text s)
  | symbol {x : Symbol} (hchars : x.name.toList.any isDelimiter = false)
      (htrue : x.name ≠ "true") (hfalse : x.name ≠ "false")
      (hnumber : Number.literal? x.name.toList = none)
      (hdigit : x.name.toList.head?.any Text.isDigit = false) : Plain (.symbol x)
  | list {vs : List Value} (h : ∀ v ∈ vs, Plain v) : Plain (.list vs)

/-- The text is made of the tokens, as long as a space, a closing parenthesis or nothing comes after
it. -/
def Writes (text : List Char) (p : List Token) : Prop :=
  ∀ (ts : List Token) (after rest : List Char), (∀ c ∈ after.head?, c = ' ' ∨ c = ')') →
    Tiles ts after rest → Tiles (p ++ ts) (text ++ after) rest

namespace Writes

theorem nil : Writes [] [] :=
  fun _ _ _ _ h => h

theorem token {t : Token} (ht : t.Spelled) : Writes t.text [t] := by
  intro ts after rest hafter h
  refine h.cons ht fun _ c hc => ?_
  rcases hafter c hc with rfl | rfl
  · exact ⟨by decide, fun _ => ⟨by decide, by decide⟩⟩
  · exact ⟨by decide, fun _ => ⟨by decide, by decide⟩⟩

theorem spaced {text text' : List Char} {p q : List Token} (h : Writes text p)
    (h' : Writes text' q) : Writes (text ++ ' ' :: text') (p ++ q) := by
  intro ts after rest hafter htiles
  rw [List.append_assoc, List.append_assoc]
  exact h _ _ _ (by simp) ((h' _ _ _ hafter htiles).blank (by decide))

theorem enclosed {text : List Char} {p : List Token} (h : Writes text p) :
    Writes ('(' :: (text ++ [')'])) (⟨.lparen, ['(']⟩ :: (p ++ [⟨.rparen, [')']⟩])) := by
  intro ts after rest hafter htiles
  have hclose : Tiles (⟨.rparen, [')']⟩ :: ts) (')' :: after) rest :=
    htiles.cons .rparen (by rintro ⟨⟩)
  have hinside := (h _ _ _ (by simp) hclose).cons .lparen (by rintro ⟨⟩)
  simpa using hinside

theorem lex_eq {text : String} {p : List Token} (h : Writes text.toList p) :
    lex text = ⟨p, none⟩ := by
  have htiles : Tiles (p ++ []) (text.toList ++ []) [] := h _ _ _ (by simp) (.done .nil)
  rw [List.append_nil, List.append_nil] at htiles
  exact lex_eq_of_tiles htiles .finish

end Writes

/-- The text is written with tokens that spell a form, which gives the value when it is taken up. -/
def Value.WrittenAs (v : Value) (text : String) : Prop :=
  ∃ p f, Writes text.toList p ∧ Derives p f ∧ ∀ s, f.load s = (.ok v, s)

theorem Value.writtenAs_atom {word : String} (hword : word.toList.any isDelimiter = false)
    {f : Form} (hf : Form.ofAtom word.toList = .ok f) {v : Value}
    (hload : ∀ s, f.load s = (.ok v, s)) : v.WrittenAs word := by
  have hne : word.toList ≠ [] := by
    intro hnil
    rw [hnil] at hf
    cases hf
  exact ⟨_, f, .token (Token.spelled_atom_iff.mpr ⟨hne, hword⟩), .atom hf, hload⟩

theorem Value.writtenAs_text {s : String} (hs : '"' ∉ s.toList) :
    (Value.text s).WrittenAs ("\"" ++ s ++ "\"") := by
  have htext : ("\"" ++ s ++ "\"").toList = '"' :: (s.toList ++ ['"']) := by simp
  have hderives := Derives.text s.toList
  rw [String.ofList_toList] at hderives
  refine ⟨_, _, ?_, hderives, fun _ => rfl⟩
  rw [htext]
  exact .token (.literal .text hs)

theorem Form.loadAll_cons {f : Form} {fs : List Form} {v : Value} {vs : List Value}
    (h : ∀ s, f.load s = (.ok v, s)) (hs : ∀ s, Form.loadAll fs s = (.ok vs, s)) (s : Store) :
    Form.loadAll (f :: fs) s = (.ok (v :: vs), s) := by
  simp only [loadAll]
  rw [Run.bind_apply_ok (h s), Run.bind_apply_ok (hs s)]
  rfl

/-- Values that are written one after the other, with spaces between them. -/
theorem Value.writtenAs_all {vs : List Value} {texts : List String}
    (h : List.Forall₂ WrittenAs vs texts) :
    ∃ ps fs, Writes (" ".intercalate texts).toList ps ∧ DeriveAll ps fs ∧
      ∀ s, Form.loadAll fs s = (.ok vs, s) := by
  induction h with
  | nil => exact ⟨[], [], .nil, .nil, fun _ => rfl⟩
  | @cons v text vs texts hv hvs ih =>
      obtain ⟨p, f, hwrites, hf, hload⟩ := hv
      cases hvs with
      | nil =>
          refine ⟨p ++ [], [f], ?_, .cons hf .nil, Form.loadAll_cons hload fun _ => rfl⟩
          simpa using hwrites
      | cons _ _ =>
          obtain ⟨ps, fs, hwritesAll, hfs, hloadAll⟩ := ih
          refine ⟨p ++ ps, f :: fs, ?_, .cons hf hfs, Form.loadAll_cons hload hloadAll⟩
          rw [String.intercalate_cons_cons, String.toList_append, String.toList_append,
            List.append_assoc]
          exact hwrites.spaced hwritesAll

theorem Value.writtenAs_list {vs : List Value} {texts : List String}
    (h : List.Forall₂ WrittenAs vs texts) :
    (Value.list vs).WrittenAs ("(" ++ " ".intercalate texts ++ ")") := by
  obtain ⟨ps, fs, hwrites, hfs, hload⟩ := writtenAs_all h
  have htext : ("(" ++ " ".intercalate texts ++ ")").toList =
      '(' :: ((" ".intercalate texts).toList ++ [')']) := by simp
  refine ⟨_, .list fs, ?_, .list hfs, fun s => ?_⟩
  · rw [htext]
    exact hwrites.enclosed
  · simp only [Form.load]
    exact Run.bind_apply_ok (hload s)

theorem Value.Plain.writtenAs {v : Value} (hv : v.Plain) (dishes : Handle → Dish) :
    v.WrittenAs (v.display dishes true) := by
  induction hv with
  | boolean b =>
      simp only [display]
      cases b with
      | true => exact writtenAs_atom (by decide) (f := .boolean true) rfl fun _ => rfl
      | false => exact writtenAs_atom (by decide) (f := .boolean false) rfl fun _ => rfl
  | text hs =>
      simp only [display]
      exact writtenAs_text hs
  | @symbol x hchars htrue hfalse hnumber hdigit =>
      simp only [display]
      exact writtenAs_atom hchars
        (Form.ofAtom_eq_symbol_iff.mpr ⟨rfl, htrue, hfalse, hnumber, hdigit⟩) fun _ => rfl
  | @list vs h ih =>
      simp only [display]
      refine writtenAs_list ?_
      clear h
      induction vs with
      | nil => exact .nil
      | cons v vs ihvs =>
          simp only [List.forall_mem_cons] at ih
          exact .cons ih.1 (ihvs ih.2)

/-- The readable text of a plain value is read as a form, and the form is taken up as that value. -/
theorem read_readable {v : Value} (hv : v.Plain) (s : Store) :
    ∃ f, read (s.readable v) = .ok f ∧ ∀ t, f.load t = (.ok v, t) := by
  obtain ⟨p, f, hwrites, hf, hload⟩ := hv.writtenAs s.dish
  refine ⟨f, read_eq_ok_iff.mpr ?_, hload⟩
  rw [Store.readable, hwrites.lex_eq]
  exact ⟨rfl, hf⟩

/-- A symbol `d` in front of a string and of a list, where it must not be taken for a dish literal. -/
theorem read_readable_letter :
    let d : Value := .symbol ⟨"d", by decide⟩
    let v : Value := .list [d, .text "; (x", d, .list [.boolean true, .list [], d], .text ""]
    v.Plain ∧ Store.empty.readable v = "(d \"; (x\" d (true () d) \"\")" ∧
      ∃ f, read (Store.empty.readable v) = .ok f ∧ ∀ t, f.load t = (.ok v, t) := by
  intro d v
  have hd : d.Plain := by
    refine .symbol ?_ ?_ ?_ ?_ ?_ <;> decide +kernel
  have hv : v.Plain := by
    refine .list ?_
    simp only [List.forall_mem_cons]
    refine ⟨hd, .text (by decide), hd, .list ?_, .text (by decide), by simp⟩
    simp only [List.forall_mem_cons]
    exact ⟨.boolean true, .list (by simp), hd, by simp⟩
  exact ⟨hv, by decide +kernel, read_readable hv Store.empty⟩

end Bakehouse
