import Bakehouse.Operation.Contents
import Bakehouse.Proofs.PositionalNumerals
import Bakehouse.Proofs.ReadingBack
import Mathlib.Data.List.DropRight

namespace Bakehouse

namespace Text

variable {p : Char → Bool}

/-- The first pieces are the same, and of the others those that are not empty. -/
theorem exists_fields_pieces (p : Char → Bool) (cs : List Char) :
    ∃ piece rest rest', fields p cs = piece :: rest ∧ pieces p cs = piece :: rest' ∧
      rest.filter (!·.isEmpty) = rest'.filter (!·.isEmpty) := by
  induction cs with
  | nil => exact ⟨[], [], [], rfl, rfl, rfl⟩
  | cons c cs ih =>
      obtain ⟨piece, rest, rest', hfields, hpieces, hrest⟩ := ih
      by_cases hc : p c = true
      · by_cases hnext : cs.head?.any p = true
        · -- The run goes on, so both cut again at once.
          have hpiece : piece = [] := by
            cases cs with
            | nil => cases hnext
            | cons d ds =>
                have hd : p d = true := hnext
                rw [pieces, if_pos hd] at hpieces
                exact (List.cons.inj hpieces).1.symm
          subst hpiece
          refine ⟨[], rest, [] :: rest', ?_, ?_, hrest⟩
          · rw [fields, if_pos hc, if_pos hnext, hfields]
          · rw [pieces, if_pos hc, hpieces]
        · refine ⟨[], piece :: rest, piece :: rest', ?_, ?_, ?_⟩
          · rw [fields, if_pos hc, if_neg hnext, hfields]
          · rw [pieces, if_pos hc, hpieces]
          · rw [List.filter_cons, List.filter_cons, hrest]
      · refine ⟨c :: piece, rest, rest', ?_, ?_, hrest⟩
        · rw [fields, if_neg hc, hfields]
        · rw [pieces, if_neg hc, hpieces]

theorem filter_fields (p : Char → Bool) (cs : List Char) :
    (fields p cs).filter (!·.isEmpty) = (pieces p cs).filter (!·.isEmpty) := by
  obtain ⟨piece, rest, rest', hfields, hpieces, hrest⟩ := exists_fields_pieces p cs
  rw [hfields, hpieces, List.filter_cons, List.filter_cons, hrest]

theorem head_fields_ne_nil {c : Char} (hc : p c = false) (cs : List Char) :
    ∃ piece, fields p (c :: cs) = (c :: piece) :: (fields p cs).tail := by
  obtain ⟨piece, rest, _, hfields, _⟩ := exists_fields_pieces p cs
  exact ⟨piece, by rw [fields, if_neg (by simp [hc]), hfields, List.tail_cons]⟩

/-- Only the first field can be empty if no separator comes last. -/
theorem ne_nil_of_mem_tail_fields {cs : List Char} (hlast : cs.getLast?.any p = false) :
    ∀ w ∈ (fields p cs).tail, w ≠ [] := by
  induction cs with
  | nil => simp [fields]
  | cons c cs ih =>
      cases cs with
      | nil =>
          have hc : p c = false := hlast
          simp [fields, hc]
      | cons d ds =>
          rw [List.getLast?_cons_cons] at hlast
          by_cases hc : p c = true
          · by_cases hd : p d = true
            · have hnext : (d :: ds).head?.any p = true := hd
              rw [fields, if_pos hc, if_pos hnext]
              exact ih hlast
            · have hnext : ¬ (d :: ds).head?.any p = true := hd
              rw [fields, if_pos hc, if_neg hnext, List.tail_cons]
              have htail := ih hlast
              obtain ⟨piece, hfields⟩ := head_fields_ne_nil (Bool.eq_false_iff.mpr hd) ds
              rw [hfields] at htail ⊢
              exact List.forall_mem_cons.mpr ⟨by simp, htail⟩
          · obtain ⟨piece, hfields⟩ := head_fields_ne_nil (Bool.eq_false_iff.mpr hc) (d :: ds)
            rw [hfields]
            exact ih hlast

theorem fields_congr {q : Char → Bool} {cs : List Char} (h : ∀ c ∈ cs, p c = q c) :
    fields p cs = fields q cs := by
  induction cs with
  | nil => rfl
  | cons c cs ih =>
      obtain ⟨hc, hcs⟩ := List.forall_mem_cons.mp h
      have hnext : cs.head?.any p = cs.head?.any q := by
        cases cs with
        | nil => rfl
        | cons d ds => exact hcs d (by simp)
      rw [fields, fields, hc, hnext, ih hcs]

theorem words_cons {c : Char} (hc : isBlank c = true) (cs : List Char) :
    words (c :: cs) = words cs := by
  rw [words, pieces, if_pos hc]
  rfl

theorem words_dropWhile (cs : List Char) : words (cs.dropWhile isBlank) = words cs := by
  induction cs with
  | nil => rfl
  | cons c cs ih =>
      by_cases hc : isBlank c = true
      · rw [List.dropWhile_cons_of_pos hc, words_cons hc, ih]
      · rw [List.dropWhile_cons_of_neg hc]

theorem pieces_concat {c : Char} (hc : p c = true) (cs : List Char) :
    pieces p (cs ++ [c]) = pieces p cs ++ [[]] := by
  induction cs with
  | nil => simp [pieces, hc]
  | cons d cs ih =>
      obtain ⟨piece, _, rest, _, hpieces, _⟩ := exists_fields_pieces p cs
      rw [List.cons_append, pieces, ih, pieces, hpieces]
      split <;> rfl

theorem words_concat {c : Char} (hc : isBlank c = true) (cs : List Char) :
    words (cs ++ [c]) = words cs := by
  rw [words, pieces_concat hc, List.filter_append]
  exact List.append_nil _

theorem words_rdropWhile (cs : List Char) : words (cs.rdropWhile isBlank) = words cs := by
  induction cs using List.reverseRecOn with
  | nil => rfl
  | append_singleton cs c ih =>
      by_cases hc : isBlank c = true
      · rw [List.rdropWhile_concat_pos _ _ _ hc, words_concat hc, ih]
      · rw [List.rdropWhile_concat_neg _ _ _ hc]

theorem strip_eq (cs : List Char) : strip cs = (cs.dropWhile isBlank).rdropWhile isBlank :=
  rfl

theorem words_strip (cs : List Char) : words (strip cs) = words cs := by
  rw [strip_eq, words_rdropWhile, words_dropWhile]

theorem mem_of_mem_strip {cs : List Char} {c : Char} (h : c ∈ strip cs) : c ∈ cs :=
  (List.dropWhile_suffix _).subset ((List.rdropWhile_prefix _ _).subset h)

theorem head?_strip (cs : List Char) : (strip cs).head?.any isBlank = false := by
  obtain ⟨after, hafter⟩ := List.rdropWhile_prefix isBlank (cs.dropWhile isBlank)
  cases hstrip : strip cs with
  | nil => rfl
  | cons c rest =>
      have hleading : cs.dropWhile isBlank = c :: (rest ++ after) := by
        rw [← hafter, ← strip_eq, hstrip, List.cons_append]
      have hne : cs.dropWhile isBlank ≠ [] := by simp [hleading]
      simpa [hleading] using List.head_dropWhile_not isBlank hne

theorem getLast?_strip (cs : List Char) : (strip cs).getLast?.any isBlank = false := by
  by_cases h : strip cs = []
  · rw [h]
    rfl
  · rw [List.getLast?_eq_some_getLast h]
    exact Bool.eq_false_iff.mpr (List.rdropWhile_last_not isBlank _ h)

/-- A text without blanks at its ends is cut into its words. -/
theorem fields_strip {cs : List Char} (h : strip cs ≠ []) :
    fields isBlank (strip cs) = words cs := by
  rw [← words_strip, words, ← filter_fields, eq_comm, List.filter_eq_self]
  obtain ⟨c, rest, hstrip⟩ := List.exists_cons_of_ne_nil h
  have hfirst : isBlank c = false := by simpa [hstrip] using head?_strip cs
  have htail := ne_nil_of_mem_tail_fields (getLast?_strip cs)
  rw [hstrip] at htail ⊢
  obtain ⟨piece, hfields⟩ := head_fields_ne_nil hfirst rest
  rw [hfields] at htail ⊢
  simpa using htail

theorem mem_dropWhile_or {cs : List Char} {c : Char} (h : c ∈ cs) :
    p c = true ∨ c ∈ cs.dropWhile p := by
  rw [← List.takeWhile_append_dropWhile (p := p) (l := cs), List.mem_append] at h
  exact h.imp_left (List.all_eq_true.mp List.all_takeWhile c)

theorem mem_strip_or {cs : List Char} {c : Char} (h : c ∈ cs) :
    isBlank c = true ∨ c ∈ strip cs := by
  rcases mem_dropWhile_or h with hblank | h
  · exact .inl hblank
  · rcases mem_dropWhile_or (List.mem_reverse.mpr h) with hblank | h
    · exact .inl hblank
    · exact .inr (List.mem_reverse.mpr h)

/-- No character gets lost but separators. -/
theorem mem_fields_or {cs : List Char} {c : Char} (h : c ∈ cs) :
    p c = true ∨ ∃ w ∈ fields p cs, c ∈ w := by
  induction cs with
  | nil => cases h
  | cons d cs ih =>
      obtain ⟨piece, rest, _, hfields, _⟩ := exists_fields_pieces p cs
      rw [hfields] at ih
      rcases List.mem_cons.mp h with rfl | h
      · by_cases hc : p c = true
        · exact .inl hc
        · exact .inr ⟨c :: piece, by simp [fields, hc, hfields], List.mem_cons_self⟩
      · refine (ih h).imp_right fun ⟨w, hw, hcw⟩ => ?_
        by_cases hd : p d = true
        · refine ⟨w, ?_, hcw⟩
          rw [fields, if_pos hd, hfields]
          split
          · exact hw
          · exact List.mem_cons_of_mem _ hw
        · rw [fields, if_neg hd, hfields]
          rcases List.mem_cons.mp hw with rfl | hw
          · exact ⟨d :: w, List.mem_cons_self, List.mem_cons_of_mem d hcw⟩
          · exact ⟨w, List.mem_cons_of_mem _ hw, hcw⟩

theorem exists_mem_words {cs : List Char} {c : Char} (hc : isBlank c = false) (h : c ∈ cs) :
    ∃ w ∈ words cs, c ∈ w := by
  obtain ⟨w, hw, hcw⟩ := (mem_fields_or h).resolve_left (Bool.eq_false_iff.mp hc)
  rw [words, ← filter_fields]
  exact ⟨w, List.mem_filter.mpr ⟨hw, by simpa using List.ne_nil_of_mem hcw⟩, hcw⟩

theorem mem_intercalate {c : Char} {ws : List (List Char)} (h : c ∈ [' '].intercalate ws) :
    c = ' ' ∨ ∃ w ∈ ws, c ∈ w := by
  induction ws with
  | nil => cases h
  | cons w ws ih =>
      cases ws with
      | nil =>
          rw [List.intercalate_singleton] at h
          exact .inr ⟨w, by simp, h⟩
      | cons w' ws =>
          rw [List.intercalate_cons_cons, List.append_assoc, List.mem_append, List.mem_append,
            List.mem_singleton] at h
          rcases h with h | h | h
          · exact .inr ⟨w, by simp, h⟩
          · exact .inl h
          · exact (ih h).imp_right fun ⟨v, hv, hc⟩ => ⟨v, List.mem_cons_of_mem _ hv, hc⟩

end Text

namespace Form

/-- The digits of radix ten are the figures. -/
theorem digit?_ten (c : Char) : (Numeral.digit? c).filter (· < 10) =
    if Text.isAsciiDigit c then some (c.toNat - 48) else none := by
  have hfigure : Text.isAsciiDigit c = true ↔ 48 ≤ c.toNat ∧ c.toNat ≤ 57 := by
    rw [Text.isAsciiDigit, Bool.and_eq_true, decide_eq_true_eq, decide_eq_true_eq]
    rfl
  ext d
  rw [Option.filter_eq_some_iff, Numeral.digit?_eq_some_iff, decide_eq_true_eq]
  by_cases h : Text.isAsciiDigit c = true
  · rw [if_pos h, Option.some.injEq]
    have := hfigure.mp h
    omega
  · rw [if_neg h]
    rw [hfigure] at h
    simp only [reduceCtorEq, iff_false]
    omega

theorem digitsOf?_ten (word : List Char) :
    Numeral.digitsOf? 10 word =
      if word.all Text.isAsciiDigit then some (word.map fun c => c.toNat - 48) else none := by
  induction word with
  | nil => rfl
  | cons c word ih =>
      rw [Numeral.digitsOf?] at ih ⊢
      rw [List.mapM_cons, digit?_ten, ih, List.all_cons]
      by_cases hc : Text.isAsciiDigit c = true
      · by_cases hword : word.all Text.isAsciiDigit = true <;> simp [hc, hword]
      · simp [hc]

/-- The literal checks for figures before it reads a number, the operation refuses what is none. -/
theorem byte_eq_ok_iff {literal : Enclosure} {word : List Char} (hword : word ≠ []) {b : UInt8} :
    byte literal word = .ok b ↔ Numeral.byte 10 word = .ok b := by
  rw [byte, Numeral.byte_eq hword, digitsOf?_ten]
  by_cases hall : word.all Text.isAsciiDigit = true
  · have hpasses : ¬ (word.isEmpty || !word.all Text.isAsciiDigit) = true := by simp [hword, hall]
    have hten : Numeral.isPowerOfTwo 10 = false := rfl
    simp only [if_neg hpasses, if_pos hall, List.length_map, hten, Bool.not_false, Bool.and_true,
      decide_eq_true_eq]
    split_ifs <;> simp
  · have hrefused : (word.isEmpty || !word.all Text.isAsciiDigit) = true := by simp [hall]
    rw [if_pos hrefused, if_neg hall]
    simp

theorem isByteSeparator_of_ne {c : Char} (hc : c ≠ ',') : isByteSeparator c = Text.isBlank c := by
  simp [isByteSeparator, hc]

theorem bytes_eq {literal : Enclosure} {cs : List Char} (hcs : ',' ∉ cs) :
    bytes literal cs = (Text.words cs).mapM (byte literal) := by
  unfold bytes
  split
  · rename_i hstrip
    rw [← Text.words_strip, hstrip]
    rfl
  · rename_i c rest hstrip
    have hseparator : ∀ d ∈ Text.strip cs, isByteSeparator d = Text.isBlank d := fun d hd =>
      isByteSeparator_of_ne fun h => hcs (h ▸ Text.mem_of_mem_strip hd)
    rw [← hstrip, Text.fields_congr hseparator, Text.fields_strip (by simp [hstrip])]

theorem bytes_eq_ok_iff {literal : Enclosure} {cs : List Char} (hcs : ',' ∉ cs) {bs : List UInt8} :
    bytes literal cs = .ok bs ↔ Numeral.decode 10 cs = .ok bs := by
  rw [bytes_eq hcs, Numeral.decode_eq_ok_iff (by decide) (by decide)]
  refine mapM_eq_ok_iff fun word hword b => ?_
  have hne := Text.ne_nil_of_mem_words hword
  rw [byte_eq_ok_iff hne, Numeral.byte_eq_ok_iff (by decide) (by decide) hne]

theorem isAsciiDigit_of_byte {literal : Enclosure} {item : List Char} {b : UInt8}
    (h : byte literal item = .ok b) : ∀ c ∈ item, Text.isAsciiDigit c = true := by
  simp only [byte] at h
  split at h
  · cases h
  · rename_i hdigits
    simp only [Bool.or_eq_true, Bool.not_eq_true', not_or, Bool.not_eq_false] at hdigits
    exact List.all_eq_true.mp hdigits.2

/-- There are only figures and separators in a text that is read as bytes. -/
theorem isByteSeparator_or_isAsciiDigit {literal : Enclosure} {cs : List Char} {bs : List UInt8}
    (h : bytes literal cs = .ok bs) {c : Char} (hc : c ∈ cs) :
    isByteSeparator c = true ∨ Text.isAsciiDigit c = true := by
  rcases Text.mem_strip_or hc with hblank | hc
  · exact .inl (by simp [isByteSeparator, hblank])
  · unfold bytes at h
    split at h
    · rename_i hstrip
      rw [hstrip] at hc
      cases hc
    · rename_i d rest hstrip
      rw [hstrip] at hc
      refine (Text.mem_fields_or hc).imp_right fun ⟨item, hitem, hc⟩ => ?_
      obtain ⟨b, -, hb⟩ := exists_mem_of_mapM h hitem
      exact isAsciiDigit_of_byte hb c hc

/-- A literal of bytes is one form. -/
theorem read_dishBytes {text : String} (htext : ']' ∉ text.toList) {bs : List UInt8}
    (h : bytes .dishBytes text.toList = .ok bs) :
    read ("d[" ++ text ++ "]") = .ok (.dish (.binary bs)) := by
  let literal : Token := ⟨.literal .dishBytes, 'd' :: '[' :: (text.toList ++ [']'])⟩
  have hspelled : literal.Spelled := .literal .dishBytes htext
  have hchars : ("d[" ++ text ++ "]").toList = literal.text := by simp [literal]
  have hlex : lex ("d[" ++ text ++ "]") = ⟨[literal], none⟩ := by
    refine Writes.lex_eq ?_
    rw [hchars]
    exact .token hspelled
  rw [read_eq_ok_iff, hlex]
  exact ⟨rfl, .dishBytes h⟩

end Form

namespace Numeral

variable {radix : Nat} {bs : List UInt8}

theorem mem_encode (hlow : 2 ≤ radix) {c : Char} (h : c ∈ encode radix bs) :
    c = ' ' ∨ ∃ d < radix, c = digitChar d := by
  refine (Text.mem_intercalate h).imp_right ?_
  rintro ⟨w, hw, hc⟩
  obtain ⟨b, _, rfl⟩ := List.mem_map.mp hw
  obtain ⟨d, hd, rfl⟩ := List.mem_map.mp hc
  exact ⟨d, lt_of_mem_digits hlow hd, rfl⟩

/-- Decimals have nothing in them that means something else in a literal. -/
theorem not_mem_encode_ten (bs : List UInt8) : ',' ∉ encode 10 bs ∧ ']' ∉ encode 10 bs := by
  have hplain : ∀ d < 10, ',' ≠ digitChar d ∧ ']' ≠ digitChar d := by decide
  constructor
  · intro h
    rcases mem_encode (by decide) h with h | ⟨d, hd, h⟩
    · exact absurd h (by decide)
    · exact (hplain d hd).1 h
  · intro h
    rcases mem_encode (by decide) h with h | ⟨d, hd, h⟩
    · exact absurd h (by decide)
    · exact (hplain d hd).2 h

/-- What is neither blank nor an ASCII figure or letter has no place among numerals. -/
theorem decode_ne_ok {c : Char} (hblank : Text.isBlank c = false)
    (hplain : isAsciiAlphanumeric c = false) {cs : List Char} (hc : c ∈ cs) :
    decode radix cs ≠ .ok bs := by
  intro h
  obtain ⟨w, hw, hcw⟩ := Text.exists_mem_words hblank hc
  obtain ⟨b, -, hb⟩ := exists_mem_of_mapM h hw
  have hall : w.all isAsciiAlphanumeric = false :=
    List.all_eq_false.mpr ⟨c, hcw, by simp [hplain]⟩
  simp [byte, hall] at hb

end Numeral

theorem BrokenText.replacement_mem (t : BrokenText) : Utf8.replacement ∈ t.replaced.toList := by
  obtain ⟨u, hu, hsurrogate⟩ := List.any_eq_true.mp t.broken
  rw [replaced, String.toList_ofList]
  cases u with
  | char c => cases hsurrogate
  | surrogate k => exact List.mem_map.mpr ⟨_, hu, rfl⟩

theorem liftFault_eq_ok_iff {α : Type} {r : Except Fault α} {x : α} :
    liftFault r = .ok x ↔ r = .ok x := by
  cases r with
  | ok y => exact ⟨fun h => congrArg _ (Except.ok.inj h), fun h => congrArg _ (Except.ok.inj h)⟩
  | error f => exact ⟨nofun, nofun⟩

theorem Catalog.transform_fromDecimal_eq_ok_iff {t : String} {bag : Arguments} {q : Contents} :
    fromDecimal.transform bag (.payload (.text t)) = .ok q ↔
      ∃ bs, Numeral.decode 10 t.toList = .ok bs ∧ q = .payload (.ofBytes bs) := by
  have hrun : ∀ p, fromDecimal.run bag (.text t) = .ok p ↔
      ∃ bs, Numeral.decode 10 t.toList = .ok bs ∧ p = .ofBytes bs := fun p =>
    liftFault_eq_ok_iff.trans Payload.fromNumerals_text_eq_ok_iff
  constructor
  · intro hq
    obtain ⟨p, hp, rfl⟩ := exists_of_map hq
    obtain ⟨bs, hbs, rfl⟩ := (hrun p).mp hp
    exact ⟨bs, hbs, rfl⟩
  · rintro ⟨bs, hbs, rfl⟩
    exact congrArg (Except.map Contents.payload) ((hrun _).mpr ⟨bs, hbs, rfl⟩)

theorem Catalog.transform_fromDecimal_broken_ne_ok (t : BrokenText) (bag : Arguments)
    (q : Contents) : fromDecimal.transform bag (.broken t) ≠ .ok q := by
  intro h
  obtain ⟨bs, hbs, -⟩ := transform_fromDecimal_eq_ok_iff.mp h
  exact Numeral.decode_ne_ok (by decide) (by decide) t.replacement_mem hbs

/-- Where no comma stands, the operation that reads decimals and the literal for bytes accept the same
texts and read them as the same bytes; neither accepts a text with a surrogate. So the decimals of
whatever has bytes, put between the brackets of a literal, are read as a dish with these bytes. -/
theorem decimal_readers_agree :
    (∀ (t : String) (bag : Arguments) (literal : Enclosure) (bs : List UInt8), ',' ∉ t.toList →
      ((∃ q, Catalog.fromDecimal.transform bag (.payload (.text t)) = .ok q ∧ q.bytes = .ok bs) ↔
        Form.bytes literal t.toList = .ok bs)) ∧
    (∀ (t : BrokenText) (bag : Arguments) (literal : Enclosure),
      (∀ q, Catalog.fromDecimal.transform bag (.broken t) ≠ .ok q) ∧
        ∀ bs, Form.bytes literal t.replaced.toList ≠ .ok bs) ∧
    ∀ (c : Contents) (bag : Arguments), c.isBroken = false → ∃ bs written, c.bytes = .ok bs ∧
      Catalog.toDecimal.transform bag c = .ok (.payload (.text written)) ∧
        read ("d[" ++ written ++ "]") = .ok (.dish (.binary bs)) := by
  refine ⟨fun t bag literal bs ht => ?_, fun t bag literal => ⟨?_, fun bs hbs => ?_⟩,
    fun c bag hc => ?_⟩
  · rw [Form.bytes_eq_ok_iff ht]
    constructor
    · rintro ⟨q, hq, hbytes⟩
      obtain ⟨cs, hcs, rfl⟩ := Catalog.transform_fromDecimal_eq_ok_iff.mp hq
      rwa [← Except.ok.inj hbytes, Payload.bytes_ofBytes]
    · intro hbs
      exact ⟨_, Catalog.transform_fromDecimal_eq_ok_iff.mpr ⟨bs, hbs, rfl⟩,
        congrArg Except.ok (Payload.bytes_ofBytes bs)⟩
  · exact Catalog.transform_fromDecimal_broken_ne_ok t bag
  · exact absurd (Form.isByteSeparator_or_isAsciiDigit hbs t.replacement_mem) (by decide)
  · obtain ⟨p, rfl⟩ := Contents.exists_payload hc
    have hchars : (String.ofList (Numeral.encode 10 p.bytes)).toList = Numeral.encode 10 p.bytes :=
      String.toList_ofList
    obtain ⟨hcomma, hclose⟩ := Numeral.not_mem_encode_ten p.bytes
    rw [← hchars] at hcomma hclose
    refine ⟨_, _, rfl, rfl, Form.read_dishBytes hclose ((Form.bytes_eq_ok_iff hcomma).mpr ?_)⟩
    rw [hchars, Numeral.decode_encode (by decide) (by decide)]

/-- Decimals with zeros before them, a wide blank between them and a line end after them. -/
theorem decimal_readers_agree_padded :
    let t := " 007\u3000 65\n"
    let c : Contents := .payload (.binary [255, 0])
    ',' ∉ t.toList ∧ Form.bytes .vector t.toList = .ok [7, 65] ∧
      (∃ q, Catalog.fromDecimal.transform .empty (.payload (.text t)) = .ok q ∧
        q.bytes = .ok [7, 65]) ∧
      c.isBroken = false ∧
      Catalog.toDecimal.transform .empty c = .ok (.payload (.text "255 0")) ∧
      read "d[255 0]" = .ok (.dish (.binary [255, 0])) := by
  intro t c
  have ht : ',' ∉ t.toList := by decide
  have hbytes : Form.bytes .vector t.toList = .ok [7, 65] := by decide
  obtain ⟨bs, written, hbs, hwrite, hread⟩ := decimal_readers_agree.2.2 c .empty rfl
  have hdecimals : Numeral.encode 10 [255, 0] = "255 0".toList := by
    simp [Numeral.encode, Numeral.encodeByte, Numeral.digits, Numeral.digitChar]
  have hwritten : Catalog.toDecimal.transform .empty c = .ok (.payload (.text "255 0")) := by
    change Except.ok (Contents.payload (.text (String.ofList (Numeral.encode 10 [255, 0])))) = _
    rw [hdecimals, String.ofList_toList]
  cases Except.ok.inj hbs
  cases Payload.text.inj (Contents.payload.inj (Except.ok.inj (hwrite.symm.trans hwritten)))
  exact ⟨ht, hbytes, (decimal_readers_agree.1 t .empty .vector _ ht).mpr hbytes, rfl, hwritten, hread⟩

/-- A text with a surrogate has no decimals, because it has no bytes. -/
theorem surrogate_has_no_decimals :
    let c : Contents := .broken ⟨[.surrogate 0x4ff], rfl⟩
    (¬ ∃ q, Catalog.toDecimal.transform .empty c = .ok q) ∧
      ∃ e : Escape, Catalog.toDecimal.transform .empty c = .error (.escape e) ∧
        e.message = "'utf-8' codec can't encode character '\\udcff' in position 0: " ++
          "surrogates not allowed" := by
  intro c
  have herror : Catalog.toDecimal.transform .empty c = .error (.escape (.surrogates [0xdcff] 0)) := by
    decide +kernel
  exact ⟨by simp [herror], _, herror, by decide +kernel⟩

end Bakehouse
