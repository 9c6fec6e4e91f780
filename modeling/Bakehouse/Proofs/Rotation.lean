import Bakehouse.Operation.Contents
import Bakehouse.Proofs.Utf8
import Mathlib.Data.Int.ModEq
import Mathlib.Data.List.Forall2

namespace Bakehouse

namespace Utf8

theorem encodeChar_of_lt {c : Char} (h : c.toNat < 128) : encodeChar c = [byte c.toNat] :=
  if_pos h

theorem le_of_mem_encodeChar {c : Char} (h : 128 ≤ c.toNat) {b : UInt8} (hb : b ∈ encodeChar c) :
    128 ≤ b.toNat := by
  have hvalid := toNat_valid c
  unfold encodeChar at hb
  simp only at hb
  rw [if_neg (by omega)] at hb
  split_ifs at hb <;> simp only [List.mem_cons, List.not_mem_nil, or_false] at hb
  · rcases hb with rfl | rfl <;> rw [toNat_byte (by omega)] <;> omega
  · rcases hb with rfl | rfl | rfl <;> rw [toNat_byte (by omega)] <;> omega
  · rcases hb with rfl | rfl | rfl | rfl <;> rw [toNat_byte (by omega)] <;> omega

end Utf8

namespace Rotation

/-- What becomes of a code: a letter moves `n` places within its case, round the alphabet, and all else
stays. -/
inductive Turns (n : Int) : Nat → Nat → Prop where
  | letter {base i j : Nat} (hbase : base = 'A'.toNat ∨ base = 'a'.toNat) (hi : i < 26) (hj : j < 26)
      (h : (j : Int) ≡ i + n [ZMOD 26]) : Turns n (base + i) (base + j)
  | other {c : Nat} (hcapital : c < 'A'.toNat ∨ 'Z'.toNat < c)
      (hsmall : c < 'a'.toNat ∨ 'z'.toNat < c) : Turns n c c

/-- The code that comes in the place of another one. -/
def code (n : Int) (c : Nat) : Nat :=
  if 65 ≤ c ∧ c < 91 then turn n 65 c else if 97 ≤ c ∧ c < 123 then turn n 97 c else c

theorem turns_turn {n : Int} {base c : Nat} (hbase : base = 'A'.toNat ∨ base = 'a'.toNat)
    (hlow : base ≤ c) (hhigh : c < base + 26) : Turns n c (turn n base c) := by
  obtain ⟨i, rfl⟩ := Nat.exists_eq_add_of_le hlow
  have hpos : 0 ≤ ((i : Int) + n) % 26 := Int.emod_nonneg _ (by decide)
  have hlt : ((i : Int) + n) % 26 < 26 := Int.emod_lt_of_pos _ (by decide)
  rw [turn, Nat.add_sub_cancel_left, Nat.add_comm _ base]
  refine .letter hbase (by omega) (by omega) ?_
  rw [Int.toNat_of_nonneg hpos]
  exact Int.mod_modEq _ _

theorem turns_code (n : Int) (c : Nat) : Turns n c (code n c) := by
  unfold code
  split_ifs with hcapital hsmall
  · exact turns_turn (.inl rfl) hcapital.1 hcapital.2
  · exact turns_turn (.inr rfl) hsmall.1 hsmall.2
  · refine .other ?_ ?_ <;> simp only [Char.reduceToNat] <;> omega

/-- A turned letter is a letter of the same case. -/
theorem turn_bounds (n : Int) (base c : Nat) : base ≤ turn n base c ∧ turn n base c < base + 26 := by
  unfold turn
  omega

theorem code_lt {n : Int} {c : Nat} (h : c < 128) : code n c < 128 := by
  unfold code
  have hcapital := turn_bounds n 65 c
  have hsmall := turn_bounds n 97 c
  split_ifs <;> omega

theorem code_of_le {n : Int} {c : Nat} (h : 128 ≤ c) : code n c = c := by
  unfold code
  split_ifs <;> omega

theorem code_code (m n : Int) (c : Nat) : code m (code n c) = code (m + n) c := by
  unfold code turn
  split_ifs <;> omega

theorem code_of_dvd {n : Int} (h : 26 ∣ n) (c : Nat) : code n c = c := by
  unfold code turn
  split_ifs <;> omega

def byte (n : Int) (b : UInt8) : UInt8 :=
  UInt8.ofNat (code n b.toNat)

theorem toNat_byte (n : Int) (b : UInt8) : (byte n b).toNat = code n b.toNat := by
  have hb : b.toNat < 256 := UInt8.toNat_lt b
  refine UInt8.toNat_ofNat_of_lt' (?_ : code n b.toNat < 256)
  by_cases h : b.toNat < 128
  · have := code_lt (n := n) h
    omega
  · rw [code_of_le (by omega)]
    exact hb

theorem byte_of_le {n : Int} {b : UInt8} (h : 128 ≤ b.toNat) : byte n b = b := by
  rw [byte, code_of_le h, UInt8.ofNat_toNat]

theorem turn_emod (n : Int) (base c : Nat) : turn (n % 26) base c = turn n base c := by
  rw [turn, turn, Int.add_emod_emod]

/-- A pass turns the letters of its alphabet, and they stay in it. -/
theorem pass_eq {n : Int} {base : Nat} (hbase : base + 26 ≤ 256) (bs : List UInt8) :
    (pass n base bs).map UInt8.toNat = (bs.map UInt8.toNat).map fun c =>
      if base ≤ c ∧ c < base + 26 then turn n base c else c := by
  rw [pass, List.map_map, List.map_map]
  refine List.map_congr_left fun b _ => ?_
  have hbounds := turn_bounds n base b.toNat
  simp only [Function.comp_apply, Bool.and_eq_true, decide_eq_true_eq]
  split_ifs
  · exact UInt8.toNat_ofNat_of_lt' (Nat.lt_of_lt_of_le hbounds.2 hbase)
  · rfl

/-- What one pass has turned is left alone by the other. -/
theorem bytes_eq (n : Int) (bs : List UInt8) : bytes n bs = bs.map (byte n) := by
  refine List.map_injective_iff.mpr (fun _ _ => UInt8.toNat_inj.mp) ?_
  rw [bytes, pass_eq (by decide), pass_eq (by decide), List.map_map, List.map_map, List.map_map]
  refine List.map_congr_left fun b _ => ?_
  have hcapital := turn_bounds n 65 b.toNat
  simp only [Function.comp_apply, toNat_byte, code, turn_emod]
  split_ifs <;> omega

def char (n : Int) (c : Char) : Char :=
  Char.ofNat (code n c.toNat)

theorem toNat_char (n : Int) (c : Char) : (char n c).toNat = code n c.toNat := by
  have hvalid := Utf8.toNat_valid c
  refine Utf8.toNat_ofNat ?_
  change code n c.toNat < 0xd800 ∨ 0xdfff < code n c.toNat ∧ code n c.toNat < 0x110000
  by_cases h : c.toNat < 128
  · have := code_lt (n := n) h
    omega
  · rwa [code_of_le (by omega)]

/-- A character of several bytes has no letters among them. -/
theorem encodeChar_char (n : Int) (c : Char) :
    Utf8.encodeChar (char n c) = (Utf8.encodeChar c).map (byte n) := by
  by_cases h : c.toNat < 128
  · have hchar : (char n c).toNat < 128 := toNat_char n c ▸ code_lt h
    rw [Utf8.encodeChar_of_lt h, Utf8.encodeChar_of_lt hchar, toNat_char, List.map_singleton, byte,
      Utf8.toNat_byte (by omega)]
    rfl
  · have hchar : char n c = c := by rw [char, code_of_le (by omega), Char.ofNat_toNat]
    have hbytes : ∀ b ∈ Utf8.encodeChar c, byte n b = b := fun b hb =>
      byte_of_le (Utf8.le_of_mem_encodeChar (by omega) hb)
    rw [hchar, List.map_congr_left hbytes, List.map_id']

theorem bytes_encode (n : Int) (cs : List Char) :
    bytes n (Utf8.encode cs) = Utf8.encode (cs.map (char n)) := by
  rw [bytes_eq, Utf8.encode, Utf8.encode, List.map_flatMap, List.flatMap_map]
  exact List.flatMap_congr fun c _ => (encodeChar_char n c).symm

end Rotation

namespace Payload

/-- The payload with every letter turned. -/
def turned (n : Int) : Payload → Payload
  | text s => ofChars (s.toList.map (Rotation.char n))
  | binary bs => binary (bs.map (Rotation.byte n))

theorem rotate_eq (n : Int) (p : Payload) : p.rotate n = .ok (p.turned n) := by
  cases p with
  | text s =>
      have hdecode : Utf8.decode? (Rotation.bytes n (text s).bytes) =
          some (s.toList.map (Rotation.char n)) :=
        Utf8.decode?_eq_some_iff.mpr (Rotation.bytes_encode n s.toList).symm
      simp only [rotate, hdecode]
      rfl
  | binary bs => rw [rotate, Rotation.bytes_eq, turned]

theorem turned_turned (m n : Int) (p : Payload) : (p.turned n).turned m = p.turned (m + n) := by
  cases p with
  | text s =>
      refine congrArg ofChars ?_
      rw [String.toList_ofList, List.map_map]
      refine List.map_congr_left fun c _ => ?_
      rw [Function.comp_apply, Rotation.char, Rotation.toNat_char, Rotation.code_code]
      rfl
  | binary bs =>
      refine congrArg binary ?_
      rw [List.map_map]
      refine List.map_congr_left fun b _ => ?_
      rw [Function.comp_apply, Rotation.byte, Rotation.toNat_byte, Rotation.code_code]
      rfl

theorem turned_of_dvd {n : Int} (h : 26 ∣ n) (p : Payload) : p.turned n = p := by
  cases p with
  | text s =>
      have hchar : ∀ c ∈ s.toList, Rotation.char n c = c := fun c _ => by
        rw [Rotation.char, Rotation.code_of_dvd h, Char.ofNat_toNat]
      rw [turned, List.map_congr_left hchar, List.map_id', ofChars, String.ofList_toList]
  | binary bs =>
      have hbyte : ∀ b ∈ bs, Rotation.byte n b = b := fun b _ => by
        rw [Rotation.byte, Rotation.code_of_dvd h, UInt8.ofNat_toNat]
      rw [turned, List.map_congr_left hbyte, List.map_id']

theorem reverse_turned (n : Int) (p : Payload) : (p.turned n).reverse = p.reverse.turned n := by
  cases p with
  | text s => simp [turned, reverse, ofChars]
  | binary bs => simp [turned, reverse]

end Payload

theorem Catalog.transform_rot13 {bag : Arguments} {n : Int} (h : bag.integer "n" = .ok n)
    (p : Payload) : rot13.transform bag (.payload p) = .ok (.payload (p.turned n)) := by
  simp only [transform, run, h, Payload.rotate_eq]
  rfl

/-- Rotation turns a text character by character and binary data byte by byte, and never fails. To
rotate twice is to rotate by the sum, so that multiples of twenty-six change nothing, and it makes no
difference whether the contents are reversed before or after. -/
theorem rotation_acts_letterwise {c : Contents} (hc : c.isBroken = false) :
    (∀ (n : Int) (bag : Arguments), bag.integer "n" = .ok n →
      (∀ s, c = .payload (.text s) → ∃ t, Catalog.rot13.transform bag c = .ok (.payload (.text t)) ∧
        List.Forall₂ (fun a b : Char => Rotation.Turns n a.toNat b.toNat) s.toList t.toList) ∧
      (∀ bs, c = .payload (.binary bs) →
        ∃ cs, Catalog.rot13.transform bag c = .ok (.payload (.binary cs)) ∧
          List.Forall₂ (fun a b : UInt8 => Rotation.Turns n a.toNat b.toNat) bs cs) ∧
      (26 ∣ n → Catalog.rot13.transform bag c = .ok c) ∧
      ∀ bag' : Arguments, (Catalog.rot13.transform bag c >>= Catalog.reverse.transform bag') =
        (Catalog.reverse.transform bag' c >>= Catalog.rot13.transform bag)) ∧
    ∀ (m n : Int) (bagM bagN bagSum : Arguments), bagM.integer "n" = .ok m →
      bagN.integer "n" = .ok n → bagSum.integer "n" = .ok (m + n) →
        (Catalog.rot13.transform bagN c >>= Catalog.rot13.transform bagM) =
          Catalog.rot13.transform bagSum c := by
  obtain ⟨p, rfl⟩ := Contents.exists_payload hc
  refine ⟨fun n bag hbag => ⟨?_, ?_, ?_, fun bag' => ?_⟩, fun m n bagM bagN bagSum hm hn hsum => ?_⟩
  · intro s hs
    cases hs
    refine ⟨_, Catalog.transform_rot13 hbag _, ?_⟩
    rw [String.toList_ofList, List.forall₂_map_right_iff, List.forall₂_same]
    intro c _
    rw [Rotation.toNat_char]
    exact Rotation.turns_code n c.toNat
  · intro bs hbs
    cases hbs
    refine ⟨_, Catalog.transform_rot13 hbag _, ?_⟩
    rw [List.forall₂_map_right_iff, List.forall₂_same]
    intro b _
    rw [Rotation.toNat_byte]
    exact Rotation.turns_code n b.toNat
  · intro h
    rw [Catalog.transform_rot13 hbag, Payload.turned_of_dvd h]
  · rw [Catalog.transform_rot13 hbag]
    change Except.ok (Contents.payload (p.turned n).reverse) =
      Catalog.rot13.transform bag (.payload p.reverse)
    rw [Catalog.transform_rot13 hbag, Payload.reverse_turned]
  · rw [Catalog.transform_rot13 hn, Catalog.transform_rot13 hsum, ← Payload.turned_turned]
    exact Catalog.transform_rot13 hm _

/-- A text with a letter that is not ASCII, turned back and then forth, and binary data. -/
theorem rotation_acts_letterwise_accented :
    let bag (n : Int) : Arguments := ⟨[("n", .integer n)]⟩
    let c : Contents := .payload (.text "Zoé")
    let d : Contents := .payload (.binary [90, 255])
    (c.isBroken = false ∧ d.isBroken = false) ∧ (bag (-27)).integer "n" = .ok (-27) ∧
      (∃ t, Catalog.rot13.transform (bag (-27)) c = .ok (.payload (.text t)) ∧
        List.Forall₂ (fun a b : Char => Rotation.Turns (-27) a.toNat b.toNat) "Zoé".toList t.toList) ∧
      (∃ cs, Catalog.rot13.transform (bag (-27)) d = .ok (.payload (.binary cs)) ∧
        List.Forall₂ (fun a b : UInt8 => Rotation.Turns (-27) a.toNat b.toNat) [90, 255] cs) ∧
      (bag 53).integer "n" = .ok 53 ∧
      (Catalog.rot13.transform (bag (-27)) c >>= Catalog.rot13.transform (bag 53)) =
        Catalog.rot13.transform (bag 26) c ∧
      (26 : Int) ∣ 26 ∧ Catalog.rot13.transform (bag 26) c = .ok c := by
  intro bag c d
  have hc := rotation_acts_letterwise (c := c) rfl
  have hd := rotation_acts_letterwise (c := d) rfl
  refine ⟨⟨rfl, rfl⟩, rfl, (hc.1 (-27) (bag (-27)) rfl).1 "Zoé" rfl,
    (hd.1 (-27) (bag (-27)) rfl).2.1 [90, 255] rfl, rfl, ?_, dvd_rfl,
    (hc.1 26 (bag 26) rfl).2.2.1 dvd_rfl⟩
  exact hc.2 53 (-27) (bag 53) (bag (-27)) (bag 26) rfl rfl rfl

/-- A text with a surrogate is not rotated: it has no bytes. -/
theorem surrogate_is_not_rotated :
    let bag : Arguments := ⟨[("n", .integer 1)]⟩
    let c : Contents := .broken ⟨[.char 'a', .surrogate 0x4ff], rfl⟩
    bag.integer "n" = .ok 1 ∧ (¬ ∃ d, Catalog.rot13.transform bag c = .ok d) ∧
      ∃ e : Escape, Catalog.rot13.transform bag c = .error (.escape e) ∧
        e.message = "'utf-8' codec can't encode character '\\udcff' in position 1: " ++
          "surrogates not allowed" := by
  intro bag c
  have herror : Catalog.rot13.transform bag c = .error (.escape (.surrogates [0xdcff] 1)) := by
    decide +kernel
  exact ⟨rfl, by simp [herror], _, herror, by decide +kernel⟩

end Bakehouse
