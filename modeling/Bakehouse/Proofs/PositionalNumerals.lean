import Bakehouse.Proofs.Comparison
import Bakehouse.Proofs.Numerals
import Mathlib.Data.List.Induction
import Mathlib.Data.Nat.Digits.Defs
import Mathlib.Tactic.IntervalCases

namespace Bakehouse

theorem Text.ne_nil_of_mem_words {cs word : List Char} (h : word ∈ words cs) : word ≠ [] := by
  simpa using (List.mem_filter.mp h).2

namespace Numeral

/-- The digits in the order of their values, with small letters after the figures. -/
def smallDigits : List Char :=
  "0123456789abcdefghijklmnopqrstuvwxyz".toList

def capitalDigits : List Char :=
  "0123456789ABCDEFGHIJKLMNOPQRSTUVWXYZ".toList

/-- The character is a digit of the radix, worth `d`. -/
def IsDigit (radix : Nat) (c : Char) (d : Nat) : Prop :=
  d < radix ∧ (smallDigits[d]? = some c ∨ capitalDigits[d]? = some c)

/-- The word is a positional numeral of the radix, worth `n`. -/
def Denotes (radix : Nat) (word : List Char) (n : Nat) : Prop :=
  ∃ ds, List.Forall₂ (IsDigit radix) word ds ∧ n = Nat.ofDigits radix ds.reverse

/-- The word is not too long to be converted. In a radix that is a power of two none is. -/
def IsShort (radix : Nat) (word : List Char) : Prop :=
  word.length ≤ 4300 ∨ ∃ k, radix = 2 ^ k

def Spells (radix : Nat) (word : List Char) (b : UInt8) : Prop :=
  Denotes radix word b.toNat ∧ IsShort radix word

variable {radix : Nat} {word : List Char}

theorem digitChar_mem : ∀ d < 36, smallDigits[d]? = some (digitChar d) ∧
    (digitChar d).toNat = if d < 10 then 48 + d else 87 + d := by
  decide

theorem capital_mem : ∀ d < 36,
    capitalDigits[d]? = some (Char.ofNat (if d < 10 then 48 + d else 55 + d)) ∧
      (Char.ofNat (if d < 10 then 48 + d else 55 + d)).toNat = if d < 10 then 48 + d else 55 + d := by
  decide

theorem isDigit_iff (hradix : radix ≤ 36) {c : Char} {d : Nat} :
    IsDigit radix c d ↔ digit? c = some d ∧ d < radix := by
  rw [IsDigit, and_comm]
  refine and_congr_left fun hd => ?_
  obtain ⟨hsmall, hsmallCode⟩ := digitChar_mem d (by omega)
  obtain ⟨hcapital, hcapitalCode⟩ := capital_mem d (by omega)
  rw [hsmall, hcapital, Option.some.injEq, Option.some.injEq, digit?_eq_some_iff, ← Char.toNat_inj,
    ← Char.toNat_inj, hsmallCode, hcapitalCode]
  split_ifs <;> omega

theorem value_eq_ofDigits (ds : List Nat) : value radix ds = Nat.ofDigits radix ds.reverse := by
  induction ds using List.reverseRecOn with
  | nil => rfl
  | append_singleton ds d ih =>
      rw [value_append, ih, List.reverse_append, List.reverse_singleton, List.singleton_append,
        Nat.ofDigits_cons, Nat.add_comm]

theorem denotes_iff (hradix : radix ≤ 36) {n : Nat} :
    Denotes radix word n ↔ ∃ ds, digitsOf? radix word = some ds ∧ n = value radix ds := by
  have hdigits : IsDigit radix = fun c d => digit? c = some d ∧ d < radix :=
    funext₂ fun _ _ => propext (isDigit_iff hradix)
  simp only [Denotes, hdigits, digitsOf?_eq_some_iff, value_eq_ofDigits]

theorem isPowerOfTwo_iff (hlow : 2 ≤ radix) (hhigh : radix ≤ 36) :
    isPowerOfTwo radix = true ↔ ∃ k, radix = 2 ^ k := by
  constructor
  · intro h
    simp only [isPowerOfTwo, List.contains_iff_mem, List.mem_cons, List.not_mem_nil, or_false] at h
    rcases h with rfl | rfl | rfl | rfl | rfl
    exacts [⟨1, rfl⟩, ⟨2, rfl⟩, ⟨3, rfl⟩, ⟨4, rfl⟩, ⟨5, rfl⟩]
  · rintro ⟨k, rfl⟩
    have hk : k < 6 := by
      by_contra h
      have := Nat.pow_le_pow_right (by decide : 0 < 2) (Nat.le_of_not_lt h)
      omega
    interval_cases k
    · omega
    all_goals rfl

/-- What is read as a number, be it small enough for a byte or not. -/
def Convertible (radix : Nat) (word : List Char) : Prop :=
  (∃ n, Denotes radix word n) ∧ IsShort radix word

/-- A word is no numeral to be converted, or is worth too much, or is read as a byte. -/
theorem byte_cases (hlow : 2 ≤ radix) (hhigh : radix ≤ 36) (hword : word ≠ []) :
    ¬ Convertible radix word ∧ byte radix word = .error .invalidDigit ∨
      (∃ n, Denotes radix word n ∧ IsShort radix word ∧ 255 < n) ∧
        byte radix word = .error .tooLarge ∨
      ∃ b, Spells radix word b ∧ byte radix word = .ok b := by
  rw [byte_eq hword]
  cases hdigits : digitsOf? radix word with
  | none =>
      refine .inl ⟨?_, rfl⟩
      rintro ⟨⟨n, hn⟩, -⟩
      obtain ⟨ds, hds, -⟩ := (denotes_iff hhigh).mp hn
      rw [hdigits] at hds
      cases hds
  | some ds =>
      have hvalue : Denotes radix word (value radix ds) := (denotes_iff hhigh).mpr ⟨ds, hdigits, rfl⟩
      have hshort : (maxDigits < ds.length && !isPowerOfTwo radix) = false ↔ IsShort radix word := by
        rw [IsShort, ← isPowerOfTwo_iff hlow hhigh, (digitsOf?_eq_some_iff.mp hdigits).length_eq,
          Bool.and_eq_false_iff, decide_eq_false_iff_not, Nat.not_lt, Bool.not_eq_false', maxDigits]
      simp only
      split_ifs with hlimit hlarge
      · exact .inl ⟨fun h => by simp [hshort.mpr h.2] at hlimit, rfl⟩
      · exact .inr (.inl ⟨⟨_, hvalue, hshort.mp (by simpa using hlimit), hlarge⟩, rfl⟩)
      · refine .inr (.inr ⟨_, ⟨?_, hshort.mp (by simpa using hlimit)⟩, rfl⟩)
        rwa [UInt8.toNat_ofNat_of_lt' (by change value radix ds < 256; omega)]

theorem Denotes.unique (hradix : radix ≤ 36) {m n : Nat} (hm : Denotes radix word m)
    (hn : Denotes radix word n) : m = n := by
  obtain ⟨ds, hds, rfl⟩ := (denotes_iff hradix).mp hm
  obtain ⟨es, hes, rfl⟩ := (denotes_iff hradix).mp hn
  rw [Option.some.inj (hds.symm.trans hes)]

theorem byte_eq_ok_iff (hlow : 2 ≤ radix) (hhigh : radix ≤ 36) (hword : word ≠ []) {b : UInt8} :
    byte radix word = .ok b ↔ Spells radix word b := by
  constructor
  · intro h
    rcases byte_cases hlow hhigh hword with ⟨-, hbyte⟩ | ⟨-, hbyte⟩ | ⟨c, hc, hbyte⟩
    · cases hbyte.symm.trans h
    · cases hbyte.symm.trans h
    · cases hbyte.symm.trans h
      exact hc
  · intro h
    rcases byte_cases hlow hhigh hword with ⟨hnot, -⟩ | ⟨⟨n, hn, -, hlarge⟩, -⟩ | ⟨c, hc, hbyte⟩
    · exact absurd ⟨⟨_, h.1⟩, h.2⟩ hnot
    · have hb : b.toNat < 256 := UInt8.toNat_lt b
      have := hn.unique hhigh h.1
      omega
    · rw [hbyte, UInt8.toNat_inj.mp (hc.1.unique hhigh h.1)]

theorem decode_eq_ok_iff (hlow : 2 ≤ radix) (hhigh : radix ≤ 36) {cs : List Char}
    {bs : List UInt8} : decode radix cs = .ok bs ↔ List.Forall₂ (Spells radix) (Text.words cs) bs :=
  mapM_eq_ok_iff fun _ hw _ => byte_eq_ok_iff hlow hhigh (Text.ne_nil_of_mem_words hw)

end Numeral

namespace Payload

theorem fromNumerals_text (radix : Nat) (s : String) :
    (text s).fromNumerals radix =
      match Numeral.decode radix s.toList with
      | .ok bs => .ok (ofBytes bs)
      | .error cause => .error (.numeral cause) :=
  rfl

theorem fromNumerals_text_eq_ok_iff {radix : Nat} {s : String} {q : Payload} :
    (text s).fromNumerals radix = .ok q ↔
      ∃ bs, Numeral.decode radix s.toList = .ok bs ∧ q = ofBytes bs := by
  rw [fromNumerals_text]
  cases Numeral.decode radix s.toList with
  | error cause => simp
  | ok bs => simp [eq_comm]

end Payload

open Numeral

/-- The operation, with these arguments, reads numerals of the radix. -/
def Catalog.ReadsAt (op : Catalog) (bag : Arguments) (radix : Nat) : Prop :=
  op = .fromRadix ∧ bag.integer "radix" = .ok (radix : Int) ∨ ∃ write, (radix, write, op) ∈ shortcuts

theorem Catalog.ReadsAt.run_eq {op : Catalog} {bag : Arguments} {radix : Nat}
    (h : op.ReadsAt bag radix) (hlow : 2 ≤ radix) (hhigh : radix ≤ 36) (p : Payload) :
    op.run bag p = liftFault (p.fromNumerals radix) := by
  rcases h with ⟨rfl, hbag⟩ | ⟨write, hmem⟩
  · rw [run_fromRadix hbag (by omega) (by omega), Int.toNat_natCast]
  · exact (run_shortcut hmem).2.2.2 bag p

/-- A fault is the answer, and the dish and all else are as before. -/
theorem Operation.runProcedure_fault {op : Operation} {entry : Catalog}
    (hop : op.procedure = .catalog entry) {bag : Arguments} {handle : Handle} {s : Store}
    {p : Payload} {f : Fault} (hdish : s.dish handle = .good p)
    (hfault : entry.run bag p = .error (.fault f)) (runText : RunText) :
    op.runProcedure runText handle bag s = (.ok (some f), s) := by
  simp only [runProcedure, hop, Run.get_bind_apply, hdish, hfault]
  rfl

/-- A text of numerals is read if and only if every word of it is a positional numeral of the radix
that is short enough and fits a byte. The payload then holds the values of the words, as a text if
they spell one. Otherwise the first word that is no such numeral decides the fault, and nothing is
changed. -/
theorem decoder_accepts_positional_numerals {radix : Nat} (hlow : 2 ≤ radix) (hhigh : radix ≤ 36)
    (s : String) :
    ((∃ q, (Payload.text s).fromNumerals radix = .ok q) ↔
      ∀ w ∈ Text.words s.toList, ∃ b, Spells radix w b) ∧
    (∀ q, (Payload.text s).fromNumerals radix = .ok q →
      List.Forall₂ (Spells radix) (Text.words s.toList) q.bytes ∧
        (q.isText = true ↔ ∃ cs, Utf8.encode cs = q.bytes)) ∧
    (∀ before w after, Text.words s.toList = before ++ w :: after →
      (∀ v ∈ before, ∃ b, Spells radix v b) → (¬ ∃ b, Spells radix w b) →
        ∃ f, (Payload.text s).fromNumerals radix = .error f ∧
          (¬ Convertible radix w → f.message = "invalid digit found in string") ∧
          (Convertible radix w → f.message = "number too large to fit in target type")) ∧
    ∀ (entry : Catalog) (bag : Arguments), entry.ReadsAt bag radix →
      entry.run bag (.text s) = liftFault ((Payload.text s).fromNumerals radix) ∧
      ∀ (op : Operation) (runText : RunText) (handle : Handle) (store : Store) (f : Fault),
        op.procedure = .catalog entry → store.dish handle = .good (.text s) →
          (Payload.text s).fromNumerals radix = .error f →
            op.runProcedure runText handle bag store = (.ok (some f), store) := by
  refine ⟨?_, ?_, ?_, fun entry bag hentry => ?_⟩
  · simp only [Payload.fromNumerals_text_eq_ok_iff, decode_eq_ok_iff hlow hhigh]
    rw [← exists_forall₂_iff]
    exact ⟨fun ⟨_, bs, hbs, _⟩ => ⟨bs, hbs⟩, fun ⟨bs, hbs⟩ => ⟨_, bs, hbs, rfl⟩⟩
  · intro q hq
    obtain ⟨bs, hbs, rfl⟩ := Payload.fromNumerals_text_eq_ok_iff.mp hq
    rw [Payload.bytes_ofBytes]
    exact ⟨(decode_eq_ok_iff hlow hhigh).mp hbs, Payload.isText_ofBytes_iff⟩
  · intro before w after hwords hbefore hw
    have hne : ∀ v ∈ before ++ w :: after, v ≠ [] := fun v hv =>
      Text.ne_nil_of_mem_words (hwords ▸ hv)
    have hread : ∀ v ∈ before, ∃ b, byte radix v = .ok b := fun v hv =>
      (hbefore v hv).imp fun _ hb => (byte_eq_ok_iff hlow hhigh (hne v (by simp [hv]))).mpr hb
    have hfails {cause : Numeral.Fault} (h : byte radix w = .error cause) :
        (Payload.text s).fromNumerals radix = .error (.numeral cause) := by
      have hall := mapM_eq_error_iff.mpr ⟨before, w, after, hwords, hread, h⟩
      rw [Payload.fromNumerals_text, decode, hall]
    rcases byte_cases hlow hhigh (hne w (by simp)) with
      ⟨hnot, h⟩ | ⟨⟨n, hn, hshort, _⟩, h⟩ | ⟨b, hb, _⟩
    · exact ⟨_, hfails h, fun _ => rfl, fun hconvertible => absurd hconvertible hnot⟩
    · exact ⟨_, hfails h, fun hnot => absurd ⟨⟨n, hn⟩, hshort⟩ hnot, fun _ => rfl⟩
    · exact absurd ⟨b, hb⟩ hw
  · have hrun := hentry.run_eq hlow hhigh
    refine ⟨hrun _, fun op runText handle store f hop hdish hfault => ?_⟩
    refine Operation.runProcedure_fault hop hdish ?_ runText
    rw [hrun, hfault]
    rfl

/-- A numeral that is worth too much, after one that is not and before one with a mark. -/
theorem decoder_accepts_positional_numerals_mixed :
    let s := "C3 100 0x1"
    let w := "100".toList
    let store : Store := { Store.empty with cells := #[⟨.good (.text s), true⟩] }
    (2 ≤ 16 ∧ 16 ≤ 36) ∧ Text.words s.toList = ["C3".toList] ++ w :: ["0x1".toList] ∧
      (∀ v ∈ ["C3".toList], ∃ b, Spells 16 v b) ∧ (¬ ∃ b, Spells 16 w b) ∧ Convertible 16 w ∧
      Catalog.fromHex.ReadsAt .empty 16 ∧ store.dish 0 = .good (.text s) ∧
      ∃ f, f.message = "number too large to fit in target type" ∧
        (Payload.text s).fromNumerals 16 = .error f ∧
        Catalog.fromHex.operation.runProcedure (fun _ => pure ()) 0 .empty store =
          (.ok (some f), store) := by
  intro s w store
  have hwords : Text.words s.toList = ["C3".toList] ++ w :: ["0x1".toList] := by decide
  have hC3 : ∀ v ∈ ["C3".toList], ∃ b, Spells 16 v b := by
    rintro v (_ | ⟨_, ⟨⟩⟩)
    refine ⟨195, ⟨[12, 3], .cons ⟨by decide, .inr rfl⟩ (.cons ⟨by decide, .inl rfl⟩ .nil), ?_⟩, ?_⟩
    · decide
    · exact .inl (by decide)
  have hw : Denotes 16 w 256 := by
    refine ⟨[1, 0, 0], .cons ?_ (.cons ?_ (.cons ?_ .nil)), by decide⟩
    all_goals exact ⟨by decide, .inl rfl⟩
  have hlarge : ¬ ∃ b, Spells 16 w b := by
    rintro ⟨b, hb, -⟩
    have hlt : b.toNat < 256 := UInt8.toNat_lt b
    have := hb.unique (by decide) hw
    omega
  have hconvertible : Convertible 16 w := ⟨⟨256, hw⟩, .inl (by decide)⟩
  have hreads : Catalog.fromHex.ReadsAt .empty 16 := .inr ⟨.toHex, by decide⟩
  obtain ⟨-, -, hfails, hrun⟩ :=
    @decoder_accepts_positional_numerals 16 (by decide) (by decide) s
  obtain ⟨f, hf, -, hmessage⟩ := hfails _ _ _ hwords hC3 hlarge
  exact ⟨by decide, hwords, hC3, hlarge, hconvertible, hreads, rfl, f, hmessage hconvertible, hf,
    (hrun .fromHex .empty hreads).2 Catalog.fromHex.operation (fun _ => pure ()) 0 store f rfl rfl hf⟩

end Bakehouse
