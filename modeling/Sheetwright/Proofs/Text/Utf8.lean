import Mathlib.Data.List.Basic
import Sheetwright.Text.Utf8
/-!
# Decoding UTF-8

Bytes are decoded exactly if they are the bytes of some text, and to that text: `decodeUtf8_ok_iff`.
-/

namespace Sheetwright.Text

variable {first lo hi b : UInt8} {count value good position fuel : Nat} {rest bytes : List UInt8}
  {c : Char} {text : List Char}

/-! ## The bytes of a text -/

theorem toList_loop (bytes : ByteArray) (place : Nat) (done : List UInt8) :
    ByteArray.toList.loop bytes place done = done.reverse ++ bytes.data.toList.drop place := by
  fun_induction ByteArray.toList.loop bytes place done with
  | case1 place done h ih =>
    have hplace : place < bytes.data.toList.length := by simpa using h
    rw [ih, List.drop_eq_getElem_cons hplace]
    simp [ByteArray.get!, h]
  | case2 place done h =>
    rw [List.drop_eq_nil_of_le (by simpa using h), List.append_nil]

theorem encodeUtf8_ofList (text : List Char) :
    encodeUtf8 (String.ofList text) = text.flatMap String.utf8EncodeChar := by
  have hloop := toList_loop text.utf8Encode 0 []
  rw [List.reverse_nil, List.nil_append, List.drop_zero] at hloop
  exact hloop.trans List.toList_data_toByteArray

/-! ## The bytes of one character -/

/-- A byte that continues a character. -/
def Continues (b : UInt8) : Prop := 0x80 ≤ b.toNat ∧ b.toNat ≤ 0xBF

/-- The bytes of one character and its code point. No code point has two spellings, and none is a
surrogate or above the last one. -/
inductive Spells : List UInt8 → Nat → Prop
  | one {a : UInt8} (ha : a.toNat ≤ 0x7F) : Spells [a] a.toNat
  | two {a b : UInt8} (ha : 0xC2 ≤ a.toNat ∧ a.toNat ≤ 0xDF) (hb : Continues b) :
    Spells [a, b] (64 * (a.toNat - 0xC0) + (b.toNat - 0x80))
  | three {a b c : UInt8} (ha : 0xE0 ≤ a.toNat ∧ a.toNat ≤ 0xEF) (hb : Continues b)
    (hlow : a.toNat = 0xE0 → 0xA0 ≤ b.toNat) (hhigh : a.toNat = 0xED → b.toNat ≤ 0x9F)
    (hc : Continues c) :
    Spells [a, b, c] (64 * (64 * (a.toNat - 0xE0) + (b.toNat - 0x80)) + (c.toNat - 0x80))
  | four {a b c d : UInt8} (ha : 0xF0 ≤ a.toNat ∧ a.toNat ≤ 0xF4) (hb : Continues b)
    (hlow : a.toNat = 0xF0 → 0x90 ≤ b.toNat) (hhigh : a.toNat = 0xF4 → b.toNat ≤ 0x8F)
    (hc : Continues c) (hd : Continues d) :
    Spells [a, b, c, d] (64 * (64 * (64 * (a.toNat - 0xF0) + (b.toNat - 0x80)) +
      (c.toNat - 0x80)) + (d.toNat - 0x80))

theorem toNat_val_ofNat (hvalue : value < 0xD800 ∨ 0xDFFF < value ∧ value < 0x110000) :
    (Char.ofNat value).val.toNat = value := by
  have hvalid : value.isValidChar := hvalue
  rw [Char.ofNat, dif_pos hvalid]
  exact UInt32.toNat_ofNatLT

theorem ofNat_eq {n : Nat} (hn : n = b.toNat) : UInt8.ofNat n = b := by
  rw [hn, UInt8.ofNat_toNat]

/-- The bytes that a character is encoded as spell its code point. -/
theorem spells_encodeChar (c : Char) : Spells (String.utf8EncodeChar c) c.val.toNat := by
  have hvalid : c.val.toNat < 0xD800 ∨ 0xDFFF < c.val.toNat ∧ c.val.toNat < 0x110000 := c.valid
  simp only [String.utf8EncodeChar]
  generalize c.val.toNat = n at hvalid
  have hbyte : ∀ {m : Nat}, m < 256 → (UInt8.ofNat m).toNat = m := fun {m} hm => by
    rw [UInt8.toNat_ofNat', Nat.mod_eq_of_lt hm]
  split
  next =>
    have ha := hbyte (m := n) (by omega)
    convert Spells.one (a := UInt8.ofNat n) (by omega)
    exact ha.symm
  split
  next =>
    have ha := hbyte (m := n / 64 % 32 + 192) (by omega)
    have hb := hbyte (m := n % 64 + 128) (by omega)
    convert Spells.two (a := UInt8.ofNat (n / 64 % 32 + 192)) (b := UInt8.ofNat (n % 64 + 128))
      (by omega) ⟨by omega, by omega⟩
    omega
  split
  next =>
    have ha := hbyte (m := n / 4096 % 16 + 224) (by omega)
    have hb := hbyte (m := n / 64 % 64 + 128) (by omega)
    have hc := hbyte (m := n % 64 + 128) (by omega)
    convert Spells.three (a := UInt8.ofNat (n / 4096 % 16 + 224))
      (b := UInt8.ofNat (n / 64 % 64 + 128)) (c := UInt8.ofNat (n % 64 + 128))
      (by omega) ⟨by omega, by omega⟩ (by omega) (by omega) ⟨by omega, by omega⟩
    omega
  next =>
    have ha := hbyte (m := n / 262144 % 8 + 240) (by omega)
    have hb := hbyte (m := n / 4096 % 64 + 128) (by omega)
    have hc := hbyte (m := n / 64 % 64 + 128) (by omega)
    have hd := hbyte (m := n % 64 + 128) (by omega)
    convert Spells.four (a := UInt8.ofNat (n / 262144 % 8 + 240))
      (b := UInt8.ofNat (n / 4096 % 64 + 128)) (c := UInt8.ofNat (n / 64 % 64 + 128))
      (d := UInt8.ofNat (n % 64 + 128)) (by omega) ⟨by omega, by omega⟩ (by omega) (by omega)
      ⟨by omega, by omega⟩ ⟨by omega, by omega⟩
    omega

/-- Bytes that spell a code point are what its character is encoded as. -/
theorem Spells.encodeChar_eq (h : Spells bytes value) :
    String.utf8EncodeChar (Char.ofNat value) = bytes := by
  simp only [String.utf8EncodeChar]
  cases h with
  | @one a ha =>
    rw [toNat_val_ofNat (by omega), if_pos ha, UInt8.ofNat_toNat]
  | @two a b ha hb =>
    obtain ⟨hb, hb'⟩ := hb
    rw [toNat_val_ofNat (by omega), if_neg (by omega), if_pos (by omega),
      ofNat_eq (b := a) (by omega), ofNat_eq (b := b) (by omega)]
  | @three a b c ha hb hlow hhigh hc =>
    obtain ⟨hb, hb'⟩ := hb
    obtain ⟨hc, hc'⟩ := hc
    rw [toNat_val_ofNat (by omega), if_neg (by omega), if_neg (by omega), if_pos (by omega),
      ofNat_eq (b := a) (by omega), ofNat_eq (b := b) (by omega), ofNat_eq (b := c) (by omega)]
  | @four a b c d ha hb hlow hhigh hc hd =>
    obtain ⟨hb, hb'⟩ := hb
    obtain ⟨hc, hc'⟩ := hc
    obtain ⟨hd, hd'⟩ := hd
    rw [toNat_val_ofNat (by omega), if_neg (by omega), if_neg (by omega), if_neg (by omega),
      ofNat_eq (b := a) (by omega), ofNat_eq (b := b) (by omega), ofNat_eq (b := c) (by omega),
      ofNat_eq (b := d) (by omega)]

/-! ## Decoding one character -/

/-- The lowest byte that may follow a first one: no code point is spelled with more bytes than it
needs. -/
def secondLow (first : UInt8) : UInt8 :=
  if first.toNat = 0xE0 then 0xA0 else if first.toNat = 0xF0 then 0x90 else 0x80

/-- The highest byte that may follow a first one: no surrogate is spelled, and nothing above the
last code point. -/
def secondHigh (first : UInt8) : UInt8 :=
  if first.toNat = 0xED then 0x9F else if first.toNat = 0xF4 then 0x8F else 0xBF

theorem secondLow_le_iff :
    (secondLow first).toNat ≤ b.toNat ↔
      0x80 ≤ b.toNat ∧ (first.toNat = 0xE0 → 0xA0 ≤ b.toNat) ∧
        (first.toNat = 0xF0 → 0x90 ≤ b.toNat) := by
  rw [secondLow]
  split
  next => change 0xA0 ≤ _ ↔ _; omega
  split
  next => change 0x90 ≤ _ ↔ _; omega
  next => change 0x80 ≤ _ ↔ _; omega

theorem le_secondHigh_iff :
    b.toNat ≤ (secondHigh first).toNat ↔
      b.toNat ≤ 0xBF ∧ (first.toNat = 0xED → b.toNat ≤ 0x9F) ∧
        (first.toNat = 0xF4 → b.toNat ≤ 0x8F) := by
  rw [secondHigh]
  split
  next => change _ ≤ 0x9F ↔ _; omega
  split
  next => change _ ≤ 0x8F ↔ _; omega
  next => change _ ≤ 0xBF ↔ _; omega

theorem continuation?_eq (first : UInt8) :
    continuation? first =
      if first.toNat ≤ 0x7F then some (0, 0x80, 0xBF)
      else if 0xC2 ≤ first.toNat ∧ first.toNat ≤ 0xDF then some (1, 0x80, 0xBF)
      else if 0xE0 ≤ first.toNat ∧ first.toNat ≤ 0xEF then
        some (2, secondLow first, secondHigh first)
      else if 0xF0 ≤ first.toNat ∧ first.toNat ≤ 0xF4 then
        some (3, secondLow first, secondHigh first)
      else none := by
  have hbyte : ∀ {n : Nat} (hn : n < 256), first = UInt8.ofNat n ↔ first.toNat = n := by
    intro n hn
    rw [← UInt8.toNat_inj, UInt8.toNat_ofNat', Nat.mod_eq_of_lt hn]
  simp only [continuation?, UInt8.lt_iff_toNat_lt, UInt8.le_iff_toNat_le, Bool.and_eq_true,
    decide_eq_true_eq, beq_iff_eq]
  change (if first.toNat < 0x80 then _ else if 0xC2 ≤ first.toNat ∧ first.toNat ≤ 0xDF then _
    else if first = UInt8.ofNat 0xE0 then _ else if first = UInt8.ofNat 0xED then _
    else if 0xE1 ≤ first.toNat ∧ first.toNat ≤ 0xEF then _
    else if first = UInt8.ofNat 0xF0 then _
    else if 0xF1 ≤ first.toNat ∧ first.toNat ≤ 0xF3 then _
    else if first = UInt8.ofNat 0xF4 then _ else _) = _
  simp only [hbyte (n := 0xE0) (by decide), hbyte (n := 0xED) (by decide),
    hbyte (n := 0xF0) (by decide), hbyte (n := 0xF4) (by decide), secondLow, secondHigh]
  grind

theorem leadBits_eq (first : UInt8) :
    leadBits first =
      if first.toNat < 0x80 then first.toNat
      else if first.toNat < 0xE0 then first.toNat - 0xC0
      else if first.toNat < 0xF0 then first.toNat - 0xE0
      else first.toNat - 0xF0 := by
  simp only [leadBits, UInt8.lt_iff_toNat_lt]
  rfl

theorem takeContinuation_cons (hlo : lo.toNat ≤ b.toNat) (hhi : b.toNat ≤ hi.toNat)
    (value good count : Nat) (rest : List UInt8) :
    takeContinuation lo hi value good (count + 1) (b :: rest) =
      takeContinuation 0x80 0xBF (64 * value + (b.toNat - 0x80)) (good + 1) count rest := by
  simp [takeContinuation, UInt8.le_iff_toNat_le, hlo, hhi]

theorem of_takeContinuation_zero {all : Nat}
    (h : takeContinuation lo hi value good 0 bytes = .ok (all, rest)) :
    value = all ∧ bytes = rest := by
  simpa [takeContinuation] using h

theorem of_takeContinuation_succ {result : Nat × List UInt8}
    (h : takeContinuation lo hi value good (count + 1) bytes = .ok result) :
    ∃ b rest, bytes = b :: rest ∧ (lo.toNat ≤ b.toNat ∧ b.toNat ≤ hi.toNat) ∧
      takeContinuation 0x80 0xBF (64 * value + (b.toNat - 0x80)) (good + 1) count rest =
        .ok result := by
  cases bytes with
  | nil => cases h
  | cons b rest =>
    rw [takeContinuation] at h
    split at h
    next hb =>
      simp only [UInt8.le_iff_toNat_le, Bool.and_eq_true, decide_eq_true_eq] at hb
      exact ⟨b, rest, rfl, hb, h⟩
    next => cases h

/-- A first byte and the continuation bytes that it asks for stand in front of a text. -/
def Leads (first : UInt8) (tail : List UInt8) (value : Nat) (rest : List UInt8) : Prop :=
  ∃ count lo hi, continuation? first = some (count, lo, hi) ∧
    takeContinuation lo hi (leadBits first) 1 count tail = .ok (value, rest)

theorem takeContinuation_continues (hb : Continues b) (value good count : Nat)
    (rest : List UInt8) :
    takeContinuation 0x80 0xBF value good (count + 1) (b :: rest) =
      takeContinuation 0x80 0xBF (64 * value + (b.toNat - 0x80)) (good + 1) count rest := by
  apply takeContinuation_cons
  · exact hb.1
  · exact hb.2

theorem Spells.leads (h : Spells bytes value) (rest : List UInt8) :
    ∃ first tail, bytes = first :: tail ∧ Leads first (tail ++ rest) value rest := by
  cases h with
  | @one a ha =>
    refine ⟨a, [], rfl, 0, 0x80, 0xBF, ?_, ?_⟩
    · rw [continuation?_eq, if_pos (by omega)]
    · rw [leadBits_eq, if_pos (by omega)]
      rfl
  | @two a b ha hb =>
    refine ⟨a, [b], rfl, 1, 0x80, 0xBF, ?_, ?_⟩
    · rw [continuation?_eq, if_neg (by omega), if_pos (by omega)]
    · rw [leadBits_eq, if_neg (by omega), if_pos (by omega), List.singleton_append,
        takeContinuation_continues hb]
      rfl
  | @three a b c ha hb hlow hhigh hc =>
    refine ⟨a, [b, c], rfl, 2, secondLow a, secondHigh a, ?_, ?_⟩
    · rw [continuation?_eq, if_neg (by omega), if_neg (by omega), if_pos (by omega)]
    · rw [leadBits_eq, if_neg (by omega), if_neg (by omega), if_pos (by omega), List.cons_append,
        takeContinuation_cons, List.singleton_append, takeContinuation_continues hc]
      · rfl
      · exact secondLow_le_iff.mpr ⟨hb.1, hlow, fun h => by omega⟩
      · exact le_secondHigh_iff.mpr ⟨hb.2, hhigh, fun h => by omega⟩
  | @four a b c d ha hb hlow hhigh hc hd =>
    refine ⟨a, [b, c, d], rfl, 3, secondLow a, secondHigh a, ?_, ?_⟩
    · rw [continuation?_eq, if_neg (by omega), if_neg (by omega), if_neg (by omega),
        if_pos (by omega)]
    · rw [leadBits_eq, if_neg (by omega), if_neg (by omega), if_neg (by omega), List.cons_append,
        takeContinuation_cons, List.cons_append, takeContinuation_continues hc,
        List.singleton_append, takeContinuation_continues hd]
      · rfl
      · exact secondLow_le_iff.mpr ⟨hb.1, fun h => by omega, hlow⟩
      · exact le_secondHigh_iff.mpr ⟨hb.2, fun h => by omega, hhigh⟩

theorem Leads.spells {tail : List UInt8} (h : Leads first tail value rest) :
    ∃ bytes, Spells bytes value ∧ first :: tail = bytes ++ rest := by
  obtain ⟨count, lo, hi, hlead, htake⟩ := h
  rw [continuation?_eq] at hlead
  rw [leadBits_eq] at htake
  -- one to four bytes, by the leading one
  split at hlead
  next ha =>
    cases hlead
    obtain ⟨rfl, rfl⟩ := of_takeContinuation_zero htake
    rw [if_pos (by omega)]
    exact ⟨_, .one ha, rfl⟩
  split at hlead
  next ha =>
    cases hlead
    obtain ⟨b, tail, rfl, hb, htake⟩ := of_takeContinuation_succ htake
    obtain ⟨rfl, rfl⟩ := of_takeContinuation_zero htake
    rw [if_neg (by omega), if_pos (by omega)]
    exact ⟨_, .two ha hb, rfl⟩
  split at hlead
  next ha =>
    simp only [Option.some.injEq, Prod.mk.injEq] at hlead
    obtain ⟨rfl, rfl, rfl⟩ := hlead
    obtain ⟨b, tail, rfl, ⟨hlow, hhigh⟩, htake⟩ := of_takeContinuation_succ htake
    obtain ⟨c, tail, rfl, hc, htake⟩ := of_takeContinuation_succ htake
    obtain ⟨rfl, rfl⟩ := of_takeContinuation_zero htake
    rw [if_neg (by omega), if_neg (by omega), if_pos (by omega)]
    obtain ⟨hb, hlow, -⟩ := secondLow_le_iff.mp hlow
    obtain ⟨hb', hhigh, -⟩ := le_secondHigh_iff.mp hhigh
    exact ⟨_, .three ha ⟨hb, hb'⟩ hlow hhigh hc, rfl⟩
  split at hlead
  next ha =>
    simp only [Option.some.injEq, Prod.mk.injEq] at hlead
    obtain ⟨rfl, rfl, rfl⟩ := hlead
    obtain ⟨b, tail, rfl, ⟨hlow, hhigh⟩, htake⟩ := of_takeContinuation_succ htake
    obtain ⟨c, tail, rfl, hc, htake⟩ := of_takeContinuation_succ htake
    obtain ⟨d, tail, rfl, hd, htake⟩ := of_takeContinuation_succ htake
    obtain ⟨rfl, rfl⟩ := of_takeContinuation_zero htake
    rw [if_neg (by omega), if_neg (by omega), if_neg (by omega)]
    obtain ⟨hb, -, hlow⟩ := secondLow_le_iff.mp hlow
    obtain ⟨hb', -, hhigh⟩ := le_secondHigh_iff.mp hhigh
    exact ⟨_, .four ha ⟨hb, hb'⟩ hlow hhigh hc hd, rfl⟩
  next => cases hlead

/-! ## Decoding a text -/

theorem decodeFrom_cons {tail : List UInt8} (h : Leads first tail value rest)
    (position fuel : Nat) :
    ∃ next, decodeFrom position (fuel + 1) (first :: tail) =
      (decodeFrom next fuel rest).map (Char.ofNat value :: ·) := by
  obtain ⟨count, lo, hi, hlead, htake⟩ := h
  exact ⟨position + count + 1, by simp only [decodeFrom, hlead, htake]⟩

theorem of_decodeFrom_cons {tail : List UInt8}
    (h : decodeFrom position (fuel + 1) (first :: tail) = .ok text) :
    ∃ value rest next later, Leads first tail value rest ∧ text = Char.ofNat value :: later ∧
      decodeFrom next fuel rest = .ok later := by
  rw [decodeFrom] at h
  split at h
  next => cases h
  next count lo hi hlead =>
    split at h
    next => cases h
    next value rest htake =>
      cases hlater : decodeFrom (position + count + 1) fuel rest with
      | error fault =>
        rw [hlater] at h
        cases h
      | ok later =>
        rw [hlater] at h
        cases h
        have hleads : Leads first tail value rest := ⟨count, lo, hi, hlead, htake⟩
        exact ⟨value, rest, position + count + 1, later, hleads, rfl, hlater⟩

theorem decodeFrom_encoded (text : List Char) (position fuel : Nat)
    (hfuel : (text.flatMap String.utf8EncodeChar).length ≤ fuel) :
    decodeFrom position fuel (text.flatMap String.utf8EncodeChar) = .ok text := by
  induction text generalizing position fuel with
  | nil => cases fuel <;> rfl
  | cons c text ih =>
    rw [List.flatMap_cons] at hfuel ⊢
    obtain ⟨first, tail, hbytes, hleads⟩ :=
      (spells_encodeChar c).leads (text.flatMap String.utf8EncodeChar)
    rw [hbytes, List.cons_append] at hfuel ⊢
    cases fuel with
    | zero => cases hfuel
    | succ fuel =>
      obtain ⟨next, hnext⟩ := decodeFrom_cons hleads position fuel
      have hshort : (text.flatMap String.utf8EncodeChar).length ≤ fuel := by
        rw [List.length_cons, List.length_append] at hfuel
        omega
      rw [hnext, ih next fuel hshort]
      change Except.ok (Char.ofNat c.toNat :: text) = _
      rw [Char.ofNat_toNat]

theorem encoded_of_decodeFrom (hfuel : bytes.length ≤ fuel)
    (h : decodeFrom position fuel bytes = .ok text) :
    text.flatMap String.utf8EncodeChar = bytes := by
  induction fuel generalizing position bytes text with
  | zero =>
    rw [List.eq_nil_of_length_eq_zero (Nat.le_zero.mp hfuel)] at h ⊢
    cases h
    rfl
  | succ fuel ih =>
    cases bytes with
    | nil =>
      cases h
      rfl
    | cons first tail =>
      obtain ⟨value, rest, next, later, hleads, rfl, hlater⟩ := of_decodeFrom_cons h
      obtain ⟨spelled, hspelled, htail⟩ := hleads.spells
      have hshort : rest.length ≤ fuel := by
        obtain ⟨first, tail, rfl, -⟩ := hspelled.leads []
        have := congrArg List.length htail
        simp only [List.length_append, List.length_cons] at this hfuel
        omega
      rw [List.flatMap_cons, hspelled.encodeChar_eq, ih hshort hlater, htail]

/-- Bytes are decoded to a text if and only if they are what the text is encoded as. -/
theorem decodeUtf8_ok_iff :
    decodeUtf8 bytes = .ok text ↔ encodeUtf8 (String.ofList text) = bytes := by
  rw [encodeUtf8_ofList]
  constructor
  · exact encoded_of_decodeFrom (Nat.le_refl _)
  · rintro rfl
    exact decodeFrom_encoded text 0 _ (Nat.le_refl _)

end Sheetwright.Text
