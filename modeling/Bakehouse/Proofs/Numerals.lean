import Bakehouse.Operation.Catalog
import Bakehouse.Proofs.Traversal
import Bakehouse.Proofs.Utf8

namespace Bakehouse

namespace Text

variable {isSeparator : Char → Bool} {piece : List Char}

theorem pieces_piece (h : ∀ c ∈ piece, isSeparator c = false) :
    pieces isSeparator piece = [piece] := by
  induction piece with
  | nil => rfl
  | cons c piece ih =>
      simp only [List.forall_mem_cons] at h
      simp [pieces, h.1, ih h.2]

theorem pieces_append (h : ∀ c ∈ piece, isSeparator c = false) {c : Char}
    (hc : isSeparator c = true) (cs : List Char) :
    pieces isSeparator (piece ++ c :: cs) = piece :: pieces isSeparator cs := by
  induction piece with
  | nil => simp [pieces, hc]
  | cons d piece ih =>
      simp only [List.forall_mem_cons] at h
      simp [pieces, h.1, ih h.2]

theorem pieces_intercalate {ws : List (List Char)} (hws : ws ≠ [])
    (h : ∀ w ∈ ws, ∀ c ∈ w, isBlank c = false) : pieces isBlank ([' '].intercalate ws) = ws := by
  induction ws with
  | nil => exact absurd rfl hws
  | cons w ws ih =>
      simp only [List.forall_mem_cons] at h
      cases ws with
      | nil => rw [List.intercalate_singleton, pieces_piece h.1]
      | cons w' ws =>
          rw [List.intercalate_cons_cons, List.append_assoc, List.singleton_append,
            pieces_append h.1 (by decide), ih (by simp) h.2]

/-- Words with single spaces between them are cut into these words. -/
theorem words_intercalate {ws : List (List Char)} (hne : ∀ w ∈ ws, w ≠ [])
    (h : ∀ w ∈ ws, ∀ c ∈ w, isBlank c = false) : words ([' '].intercalate ws) = ws := by
  by_cases hws : ws = []
  · subst hws
    rfl
  · rw [words, pieces_intercalate hws h, List.filter_eq_self]
    intro w hw
    simpa using hne w hw

end Text

namespace Numeral

variable {radix : Nat} {word : List Char}

theorem digit?_eq_some_iff {c : Char} {d : Nat} :
    digit? c = some d ↔
      d < 10 ∧ c.toNat = 48 + d ∨ 10 ≤ d ∧ d < 36 ∧ (c.toNat = 87 + d ∨ c.toNat = 55 + d) := by
  have hle (a b : Char) : a ≤ b ↔ a.toNat ≤ b.toNat := Iff.rfl
  simp only [digit?, hle, Bool.and_eq_true, decide_eq_true_eq, Char.reduceToNat]
  split_ifs <;> simp only [Option.some.injEq, false_iff] <;> omega

theorem toNat_toLower (c : Char) :
    c.toLower.toNat = if 65 ≤ c.toNat ∧ c.toNat ≤ 90 then c.toNat + 32 else c.toNat := by
  have hcapital : c.val ≥ 'A'.val ∧ c.val ≤ 'Z'.val ↔ 65 ≤ c.toNat ∧ c.toNat ≤ 90 := Iff.rfl
  unfold Char.toLower
  split
  · rename_i h
    rw [if_pos (hcapital.mp h)]
    change (c.val + ('a'.val - 'A'.val)).toNat = c.toNat + 32
    rw [UInt32.toNat_add]
    change (c.toNat + 32) % 2 ^ 32 = c.toNat + 32
    have := hcapital.mp h
    omega
  · rename_i h
    rw [if_neg fun hc => h (hcapital.mpr hc)]

theorem digit?_toLower (c : Char) : digit? c.toLower = digit? c := by
  ext d
  rw [digit?_eq_some_iff, digit?_eq_some_iff, toNat_toLower]
  split <;> omega

theorem isAsciiAlphanumeric_iff {c : Char} :
    isAsciiAlphanumeric c = true ↔ ∃ d, digit? c = some d := by
  simp only [digit?, isAsciiAlphanumeric, Text.isAsciiLetter, Text.isAsciiDigit, Bool.or_eq_true]
  split_ifs with hdigit hsmall hcapital
  · simp [hdigit]
  · simp [hsmall]
  · simp [hcapital]
  · simp [hdigit, hsmall, hcapital]

theorem code_of_isAsciiAlphanumeric {c : Char} (h : isAsciiAlphanumeric c = true) :
    48 ≤ c.toNat ∧ c.toNat < 127 ∧ c.toNat ≠ 95 := by
  obtain ⟨d, hd⟩ := isAsciiAlphanumeric_iff.mp h
  rw [digit?_eq_some_iff] at hd
  omega

theorem digitsOf?_eq_some_iff {ds : List Nat} :
    digitsOf? radix word = some ds ↔
      List.Forall₂ (fun c d => digit? c = some d ∧ d < radix) word ds := by
  induction word generalizing ds with
  | nil =>
      rw [List.forall₂_nil_left_iff]
      simp [digitsOf?, eq_comm]
  | cons c word ih =>
      rw [digitsOf?] at ih ⊢
      rw [List.mapM_cons]
      cases ds with
      | nil => simp [Option.bind_eq_some_iff]
      | cons d ds =>
          rw [List.forall₂_cons]
          simp [Option.bind_eq_some_iff, Option.filter_eq_some_iff, ih, and_assoc]

theorem isAsciiAlphanumeric_of_digitsOf? {ds : List Nat} (h : digitsOf? radix word = some ds) :
    ∀ c ∈ word, isAsciiAlphanumeric c = true := by
  rw [digitsOf?_eq_some_iff] at h
  induction h with
  | nil => simp
  | cons hd _ ih => exact List.forall_mem_cons.mpr ⟨isAsciiAlphanumeric_iff.mpr ⟨_, hd.1⟩, ih⟩

/-- The letter that marks a radix is worth too much to be a digit of it. -/
theorem digitsOf?_of_isMarked (h : isMarked radix word = true) : digitsOf? radix word = none := by
  unfold isMarked at h
  split at h
  · rename_i c rest
    have hmark : ∀ d, digit? c = some d → ¬ d < radix := by
      intro d hd
      rw [← digit?_toLower] at hd
      unfold mark? at h
      split at h <;> simp only [beq_iff_eq, Option.some.injEq, reduceCtorEq] at h
      all_goals
        rw [← h] at hd
        cases hd
        decide
    rw [Option.eq_none_iff_forall_ne_some]
    intro ds hds
    obtain _ | ⟨_, _ | ⟨⟨hd, hlt⟩, _⟩⟩ := digitsOf?_eq_some_iff.mp hds
    exact hmark _ hd hlt
  · cases h

theorem natural?_eq (hword : word ≠ []) (hall : ∀ c ∈ word, isAsciiAlphanumeric c = true)
    (hmark : isMarked radix word = false) :
    natural? radix word = (digitsOf? radix word).bind fun ds =>
      if maxDigits < ds.length && !isPowerOfTwo radix then none else some (value radix ds) := by
  have hpieces : Text.pieces (· == '_') word = [word] := by
    refine Text.pieces_piece fun c hc => beq_eq_false_iff_ne.mpr ?_
    rintro rfl
    exact (code_of_isAsciiAlphanumeric (hall '_' hc)).2.2 rfl
  have hgrouped : grouped? radix word = digitsOf? radix word := by
    have hne : [word].any (·.isEmpty) = false := by simpa using hword
    rw [grouped?, hpieces]
    simp only [hne, Bool.false_eq_true, if_false, List.flatten_singleton]
  rw [natural?, unmarked, hmark, if_neg (by decide), hgrouped]
  rfl

theorem dropWhile_eq_self {p : Char → Bool} {cs : List Char} (h : ∀ c ∈ cs, p c = false) :
    cs.dropWhile p = cs := by
  cases cs with
  | nil => rfl
  | cons c cs => rw [List.dropWhile_cons_of_neg (by simp [h c])]

theorem integer?_eq (hall : ∀ c ∈ word, isAsciiAlphanumeric c = true) :
    integer? radix word = (natural? radix word).map Int.ofNat := by
  have hcode := fun c hc => code_of_isAsciiAlphanumeric (hall c hc)
  have hplain : word.map plain = word := by
    refine (List.map_congr_left fun c hc => ?_).trans (List.map_id word)
    rw [plain, if_pos (hcode c hc).2.1, id_eq]
  have hblank : ∀ c ∈ word, Text.isAsciiBlank c = false := by
    intro c hc
    have := hcode c hc
    simp only [Text.isAsciiBlank, Bool.or_eq_false_iff, Bool.and_eq_false_iff,
      decide_eq_false_iff_not, beq_eq_false_iff_ne]
    omega
  have htrim : (word.reverse.dropWhile Text.isAsciiBlank).reverse = word := by
    rw [dropWhile_eq_self (by simpa using hblank), List.reverse_reverse]
  simp only [integer?, hplain, dropWhile_eq_self hblank, htrim]
  split
  · exact absurd (hcode '+' (by simp)).1 (by decide)
  · exact absurd (hcode '-' (by simp)).1 (by decide)
  · rfl

/-- A word is read digit by digit. -/
theorem byte_eq (hword : word ≠ []) :
    byte radix word =
      match digitsOf? radix word with
      | none => .error .invalidDigit
      | some ds =>
        if maxDigits < ds.length && !isPowerOfTwo radix then .error .invalidDigit
        else if 255 < value radix ds then .error .tooLarge
        else .ok (UInt8.ofNat (value radix ds)) := by
  have hpasses : (word.isEmpty || !word.all isAsciiAlphanumeric || isMarked radix word) = false ↔
      (∀ c ∈ word, isAsciiAlphanumeric c = true) ∧ isMarked radix word = false := by
    simp [hword]
  have hread : (∀ c ∈ word, isAsciiAlphanumeric c = true) ∧ isMarked radix word = false →
      integer? radix word = ((digitsOf? radix word).bind fun ds =>
        if maxDigits < ds.length && !isPowerOfTwo radix then none
        else some (value radix ds)).map Int.ofNat := by
    rintro ⟨hall, hmark⟩
    rw [integer?_eq hall, natural?_eq hword hall hmark]
  rw [byte]
  cases hdigits : digitsOf? radix word with
  | none =>
      split_ifs with hrefused
      · rfl
      · rw [hread (hpasses.mp (Bool.eq_false_iff.mpr hrefused)), hdigits]
        rfl
  | some ds =>
      have hmark : isMarked radix word = false := by
        by_contra h
        rw [digitsOf?_of_isMarked (by simpa using h)] at hdigits
        cases hdigits
      have hpassed := And.intro (isAsciiAlphanumeric_of_digitsOf? hdigits) hmark
      rw [if_neg (by simp [hpasses.mpr hpassed]), hread hpassed, hdigits, Option.bind_some]
      by_cases hlimit : (maxDigits < ds.length && !isPowerOfTwo radix) = true
      · simp only [if_pos hlimit, Option.map_none]
      · have hcast : (255 : Int) < Int.ofNat (value radix ds) ↔ 255 < value radix ds := by
          rw [Int.ofNat_eq_natCast]
          omega
        simp only [if_neg hlimit, Option.map_some, hcast]
        rfl

theorem value_append (ds : List Nat) (d : Nat) :
    value radix (ds ++ [d]) = radix * value radix ds + d := by
  simp [value]

theorem value_digits (n : Nat) : value radix (digits radix n) = n := by
  induction n using digits.induct radix with
  | case1 n h ih => rw [digits, dif_pos h, value_append, ih, Nat.div_add_mod]
  | case2 n h =>
      rw [digits, dif_neg h]
      simp [value]

theorem lt_of_mem_digits (hradix : 2 ≤ radix) {n d : Nat} (hd : d ∈ digits radix n) :
    d < radix := by
  induction n using digits.induct radix with
  | case1 n h ih =>
      rw [digits, dif_pos h, List.mem_append, List.mem_singleton] at hd
      rcases hd with hd | rfl
      · exact ih hd
      · exact Nat.mod_lt n (by omega)
  | case2 n h =>
      rw [digits, dif_neg h, List.mem_singleton] at hd
      omega

theorem digits_ne_nil (n : Nat) : digits radix n ≠ [] := by
  rw [digits]
  split <;> simp

theorem length_digits_le (n : Nat) : (digits radix n).length ≤ n + 1 := by
  induction n using digits.induct radix with
  | case1 n h ih =>
      have hlt : n / radix < n := Nat.div_lt_self (by omega) (by omega)
      rw [digits, dif_pos h, List.length_append, List.length_singleton]
      omega
  | case2 n h =>
      rw [digits, dif_neg h, List.length_singleton]
      omega

theorem digit?_digitChar : ∀ d < 36, digit? (digitChar d) = some d := by
  decide

theorem not_isBlank_digitChar : ∀ d < 36, Text.isBlank (digitChar d) = false := by
  decide

theorem digitsOf?_map {ds : List Nat} (hds : ∀ d ∈ ds, d < radix) (hradix : radix ≤ 36) :
    digitsOf? radix (ds.map digitChar) = some ds := by
  induction ds with
  | nil => rfl
  | cons d ds ih =>
      simp only [List.forall_mem_cons] at hds
      have hdigit : (digit? (digitChar d)).filter (· < radix) = some d := by
        rw [digit?_digitChar d (by omega), Option.filter_some, if_pos (by simpa using hds.1)]
      have hrest := ih hds.2
      rw [digitsOf?] at hrest ⊢
      rw [List.map_cons, List.mapM_cons, hdigit, hrest]
      rfl

theorem byte_encodeByte (hlow : 2 ≤ radix) (hhigh : radix ≤ 36) (b : UInt8) :
    byte radix (encodeByte radix b) = .ok b := by
  have hb : b.toNat < 256 := UInt8.toNat_lt b
  have hlength : (digits radix b.toNat).length ≤ b.toNat + 1 := length_digits_le b.toNat
  have hne : encodeByte radix b ≠ [] := by simpa [encodeByte] using digits_ne_nil b.toNat
  have hshort : ¬ maxDigits < (digits radix b.toNat).length := by
    rw [maxDigits]
    omega
  have hdigits : digitsOf? radix (encodeByte radix b) = some (digits radix b.toNat) :=
    digitsOf?_map (fun d hd => lt_of_mem_digits hlow hd) hhigh
  have hfits : ¬ 255 < b.toNat := by omega
  simp [byte_eq hne, hdigits, hshort, value_digits, hfits]

theorem mapM_byte_map (hlow : 2 ≤ radix) (hhigh : radix ≤ 36) (bs : List UInt8) :
    (bs.map (encodeByte radix)).mapM (byte radix) = .ok bs := by
  rw [mapM_eq_ok_iff fun _ _ _ => Iff.rfl, List.forall₂_map_left_iff, List.forall₂_same]
  exact fun b _ => byte_encodeByte hlow hhigh b

theorem decode_encode (hlow : 2 ≤ radix) (hhigh : radix ≤ 36) (bs : List UInt8) :
    decode radix (encode radix bs) = .ok bs := by
  rw [decode, encode, Text.words_intercalate, mapM_byte_map hlow hhigh]
  · intro w hw
    obtain ⟨b, _, rfl⟩ := List.mem_map.mp hw
    simpa [encodeByte] using digits_ne_nil b.toNat
  · intro w hw c hc
    obtain ⟨b, _, rfl⟩ := List.mem_map.mp hw
    obtain ⟨d, hd, rfl⟩ := List.mem_map.mp hc
    exact not_isBlank_digitChar d (Nat.lt_of_lt_of_le (lt_of_mem_digits hlow hd) hhigh)

end Numeral

namespace Payload

theorem fromNumerals_toNumerals {radix : Nat} (hlow : 2 ≤ radix) (hhigh : radix ≤ 36)
    (p : Payload) : (p.toNumerals radix).fromNumerals radix = .ok (ofBytes p.bytes) := by
  have htext : (p.toNumerals radix).textOf s!"radix {radix}" =
      .ok (Numeral.encode radix p.bytes) := by
    rw [toNumerals, ofChars, textOf, String.toList_ofList]
  simp only [fromNumerals, htext, bind, Except.bind, Numeral.decode_encode hlow hhigh p.bytes]
  rfl

end Payload

/-- Writing the payload gives a text, and reading that text gives a payload with the same bytes. It is
a text if and only if these bytes are well formed, so a text comes back as it was. -/
def ReadsBack (write read : Payload → Except Trouble Payload) (p : Payload) : Prop :=
  ∃ written q, write p = .ok (.text written) ∧ read (.text written) = .ok q ∧ q.bytes = p.bytes ∧
    (q.isText = true ↔ ∃ cs, Utf8.encode cs = p.bytes) ∧ ∀ s, p = .text s → q = .text s

theorem ReadsBack.of_numerals {write read : Payload → Except Trouble Payload} {radix : Nat}
    (hlow : 2 ≤ radix) (hhigh : radix ≤ 36) {p : Payload} (hwrite : write p = .ok (p.toNumerals radix))
    (hread : ∀ q, read q = liftFault (q.fromNumerals radix)) : ReadsBack write read p := by
  refine ⟨_, .ofBytes p.bytes, hwrite, ?_, Payload.bytes_ofBytes _, Payload.isText_ofBytes_iff, ?_⟩
  · rw [hread]
    exact congrArg liftFault (Payload.fromNumerals_toNumerals hlow hhigh p)
  · rintro s rfl
    exact Payload.ofBytes_text s

namespace Catalog

theorem run_toRadix {bag : Arguments} {radix : Int} (hbag : bag.integer "radix" = .ok radix)
    (hlow : 2 ≤ radix) (hhigh : radix ≤ 36) (p : Payload) :
    toRadix.run bag p = .ok (p.toNumerals radix.toNat) := by
  obtain ⟨a, ha⟩ := Arguments.get_of_integer hbag
  have hne : radix ≠ 64 := by omega
  have hrun : toRadix.run bag p = liftFault (p.toRadix radix a.inspect) := by
    simp only [run, hbag, ha]
    rfl
  rw [hrun, Payload.toRadix, if_neg (by simpa using hne), if_pos (by simp [hlow, hhigh])]
  rfl

theorem run_fromRadix {bag : Arguments} {radix : Int} (hbag : bag.integer "radix" = .ok radix)
    (hlow : 2 ≤ radix) (hhigh : radix ≤ 36) (p : Payload) :
    fromRadix.run bag p = liftFault (p.fromNumerals radix.toNat) := by
  obtain ⟨a, ha⟩ := Arguments.get_of_integer hbag
  have hrun : fromRadix.run bag p = liftFault (p.fromRadix radix a.inspect) := by
    simp only [run, hbag, ha]
    rfl
  rw [hrun, Payload.fromRadix, if_pos (by simp [hlow, hhigh])]

/-- The radices that have operations of their own, with the one that writes and the one that reads. -/
def shortcuts : List (Nat × Catalog × Catalog) :=
  [(2, toBinary, fromBinary), (8, toOctal, fromOctal), (10, toDecimal, fromDecimal),
    (16, toHex, fromHex)]

theorem run_shortcut {radix : Nat} {write read : Catalog} (h : (radix, write, read) ∈ shortcuts) :
    2 ≤ radix ∧ radix ≤ 36 ∧
      (∀ bag p, write.run bag p = .ok (p.toNumerals radix)) ∧
        ∀ bag p, read.run bag p = liftFault (p.fromNumerals radix) := by
  simp only [shortcuts, List.mem_cons, Prod.mk.injEq, List.not_mem_nil, or_false] at h
  rcases h with ⟨rfl, rfl, rfl⟩ | ⟨rfl, rfl, rfl⟩ | ⟨rfl, rfl, rfl⟩ | ⟨rfl, rfl, rfl⟩
  all_goals exact ⟨by decide, by decide, fun _ _ => rfl, fun _ _ => rfl⟩

end Catalog

/-- In every radix from 2 to 36 a payload that is written in numerals is read back. The radices that
have operations of their own write the same numerals as the general operation. -/
theorem numerals_are_read_back (p : Payload) :
    (∀ (radix : Int) (bag bag' : Arguments), 2 ≤ radix → radix ≤ 36 →
      bag.integer "radix" = .ok radix → bag'.integer "radix" = .ok radix →
        ReadsBack (Catalog.toRadix.run bag) (Catalog.fromRadix.run bag') p) ∧
    ∀ radix write read, (radix, write, read) ∈ Catalog.shortcuts → ∀ bag : Arguments,
      (∀ bag' : Arguments, ReadsBack (write.run bag) (read.run bag') p) ∧
        ∀ bag' : Arguments, bag'.integer "radix" = .ok (radix : Int) →
          Catalog.toRadix.run bag' p = write.run bag p := by
  constructor
  · intro radix bag bag' hlow hhigh hbag hbag'
    exact .of_numerals (by omega) (by omega) (Catalog.run_toRadix hbag hlow hhigh p)
      fun q => Catalog.run_fromRadix hbag' hlow hhigh q
  · intro radix write read hmem bag
    obtain ⟨hlow, hhigh, hwrite, hread⟩ := Catalog.run_shortcut hmem
    refine ⟨fun bag' => .of_numerals hlow hhigh (hwrite bag p) (hread bag'), fun bag' hbag' => ?_⟩
    rw [Catalog.run_toRadix hbag' (by omega) (by omega), hwrite, Int.toNat_natCast]

/-- Bytes with a zero and with a byte that no text has, written in radix 36, and a text in radix 2. -/
theorem numerals_are_read_back_mixed :
    let bag : Arguments := ⟨[("radix", .integer 36)]⟩
    let p : Payload := .binary [0, 35, 255]
    bag.integer "radix" = .ok 36 ∧
      ReadsBack (Catalog.toRadix.run bag) (Catalog.fromRadix.run bag) p ∧
      (2, Catalog.toBinary, Catalog.fromBinary) ∈ Catalog.shortcuts ∧
      ReadsBack (Catalog.toBinary.run .empty) (Catalog.fromBinary.run .empty) (.text "é") := by
  intro bag p
  have hmem : (2, Catalog.toBinary, Catalog.fromBinary) ∈ Catalog.shortcuts := by decide
  refine ⟨rfl, ?_, hmem, ?_⟩
  · exact (numerals_are_read_back p).1 36 bag bag (by decide) (by decide) rfl rfl
  · exact ((numerals_are_read_back (.text "é")).2 2 _ _ hmem .empty).1 .empty

end Bakehouse
