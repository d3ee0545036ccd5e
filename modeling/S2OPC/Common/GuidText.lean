import S2OPC.Common.BuiltinTypes
import S2OPC.Common.NumberText

/-!
# S2OPC.Common.GuidText

`SOPC_Guid_FromCString` and `SOPC_Guid_IntoCString`. The parser takes its fields with `strtoul`, so it
accepts more than hexadecimal digits (`LooseForm`).
-/

namespace S2OPC
namespace Guid

open Numeral NumberText List

variable (ul : ULong)

def pairOffsets : List Nat := [19, 21, 24, 26, 28, 30, 32, 34]

def dashOffsets : List Nat := [8, 13, 18, 23]

def pairAt (str : List UInt8) (i : Nat) : List UInt8 := [str.getD i 0, str.getD (i + 1) 0]

def parsePairs (str : List UInt8) :
    (offsets : List Nat) → Option {bytes : List UInt8 // bytes.length = offsets.length}
  | [] => some ⟨[], rfl⟩
  | i :: offsets => do
    let b ← strtouint8 ul (pairAt str i) 16 0
    let bytes ← parsePairs str offsets
    some ⟨b :: bytes.val, congrArg (· + 1) bytes.property⟩

def fromCString (str : List UInt8) : Option Guid :=
  if str.length = 36 ∧ ∀ i ∈ dashOffsets, str.getD i 0 = 45 then do
    let data1 ← strtouint32 ul str 16 45
    let data2 ← strtouint16 ul (str.drop 9) 16 45
    let data3 ← strtouint16 ul (str.drop 14) 16 45
    let data4 ← parsePairs ul str pairOffsets
    some ⟨data1, data2, data3, data4.val, data4.property⟩
  else none

def hex (k n : Nat) : List UInt8 := spell (lastDigits 16 k n)

def intoCString (g : Guid) : List UInt8 :=
  103 :: 61 :: (hex 8 g.data1.toNat ++ 45 :: (hex 4 g.data2.toNat ++ 45 :: (hex 4 g.data3.toNat ++
    45 :: ((g.data4.take 2).flatMap (fun b => hex 2 b.toNat) ++
      45 :: (g.data4.drop 2).flatMap fun b => hex 2 b.toNat))))

/-- 8-4-4-4-12 hexadecimal digits, with dashes between. -/
structure HexForm (str : List UInt8) : Prop where
  length : str.length = 36
  dashes : ∀ i ∈ dashOffsets, str.getD i 0 = 45
  digits : ∀ i < 36, i ∉ dashOffsets → isDigit 16 (str.getD i 0) = true

def field (str : List UInt8) (i n : Nat) : List UInt8 := (str.drop i).take n

structure Denotes (str : List UInt8) (g : Guid) : Prop where
  data1 : g.data1.toNat = value 16 (field str 0 8)
  data2 : g.data2.toNat = value 16 (field str 9 4)
  data3 : g.data3.toNat = value 16 (field str 14 4)
  data4 : g.data4.map UInt8.toNat = pairOffsets.map fun i => value 16 (pairAt str i)

def ParsedRight (str : List UInt8) : Prop :=
  ((∃ g, fromCString ul str = some g) ↔ HexForm str) ∧ ∀ g, fromCString ul str = some g → Denotes str g

/-- What the parser accepts: dashes at their places, where each field starts with any number up to a
dash, with spaces, a sign or a prefix before the digits, and each byte of the last two is one too. -/
structure LooseForm (str : List UInt8) : Prop where
  length : str.length = 36
  dashes : ∀ i ∈ dashOffsets, str.getD i 0 = 45
  data1 : ∃ n, Reads ul (2 ^ 32 - 1) str 16 45 n
  data2 : ∃ n, Reads ul (2 ^ 16 - 1) (str.drop 9) 16 45 n
  data3 : ∃ n, Reads ul (2 ^ 16 - 1) (str.drop 14) 16 45 n
  data4 : ∀ i ∈ pairOffsets, ∃ n, Reads ul (2 ^ 8 - 1) (pairAt str i) 16 0 n

theorem endsNumber_dash : EndsNumber 16 45 := ⟨by decide, by decide⟩

theorem endsNumber_null {base : Nat} : EndsNumber base 0 := ⟨rfl, by decide⟩

variable {ul}

theorem parsePairs_cons (str : List UInt8) (i : Nat) (offsets : List Nat) :
    parsePairs ul str (i :: offsets) = (strtouint8 ul (pairAt str i) 16 0).bind fun b =>
      (parsePairs ul str offsets).bind fun bytes =>
        some ⟨b :: bytes.val, congrArg (· + 1) bytes.property⟩ := rfl

variable {str : List UInt8}

theorem parsePairs_eq_some_iff : ∀ {offsets : List Nat}
    (bytes : {bytes : List UInt8 // bytes.length = offsets.length}),
    parsePairs ul str offsets = some bytes ↔
      List.Forall₂ (fun i (b : UInt8) => Reads ul (2 ^ 8 - 1) (pairAt str i) 16 0 b.toNat) offsets
        bytes.val := by
  intro offsets
  induction offsets with
  | nil => rintro ⟨bytes, hlen⟩; simp [parsePairs]
  | cons i offsets ih =>
    rintro ⟨bytes, hlen⟩; obtain ⟨b, bytes, rfl⟩ := exists_cons_of_length_eq_add_one hlen
    have hlen' : bytes.length = offsets.length := Nat.succ.inj hlen
    rw [forall₂_cons, ← strtouint8_eq_some_iff endsNumber_null, ← ih ⟨bytes, hlen'⟩]
    simp only [parsePairs_cons, Option.bind_eq_some_iff, Option.some.injEq, Subtype.mk.injEq,
      List.cons.injEq]
    constructor
    · rintro ⟨b, hb, ⟨bytes, hlen⟩, hbytes, rfl, rfl⟩; exact ⟨hb, hbytes⟩
    · rintro ⟨hb, hbytes⟩; exact ⟨b, hb, _, hbytes, rfl, rfl⟩

structure ReadAs (ul : ULong) (str : List UInt8) (g : Guid) : Prop where
  length : str.length = 36
  dashes : ∀ i ∈ dashOffsets, str.getD i 0 = 45
  data1 : Reads ul (2 ^ 32 - 1) str 16 45 g.data1.toNat
  data2 : Reads ul (2 ^ 16 - 1) (str.drop 9) 16 45 g.data2.toNat
  data3 : Reads ul (2 ^ 16 - 1) (str.drop 14) 16 45 g.data3.toNat
  data4 : List.Forall₂ (fun i (b : UInt8) => Reads ul (2 ^ 8 - 1) (pairAt str i) 16 0 b.toNat)
    pairOffsets g.data4

theorem fromCString_eq_some_iff {g : Guid} : fromCString ul str = some g ↔ ReadAs ul str g := by
  unfold fromCString
  rw [Option.ite_none_right_eq_some]
  simp only [Option.bind_eq_bind, Option.bind_eq_some_iff, Option.some.injEq,
    strtouint32_eq_some_iff endsNumber_dash, strtouint16_eq_some_iff endsNumber_dash,
    parsePairs_eq_some_iff]
  constructor
  · rintro ⟨⟨hlen, hdash⟩, data1, h₁, data2, h₂, data3, h₃, data4, h₄, rfl⟩
    exact ⟨hlen, hdash, h₁, h₂, h₃, h₄⟩
  · intro h
    exact ⟨⟨h.length, h.dashes⟩, _, h.data1, _, h.data2, _, h.data3, ⟨g.data4, g.data4_length⟩,
      h.data4, rfl⟩

theorem LooseForm.exists_readAs (h : LooseForm ul str) : ∃ g, ReadAs ul str g := by
  obtain ⟨n₁, h₁⟩ := h.data1
  obtain ⟨n₂, h₂⟩ := h.data2
  obtain ⟨n₃, h₃⟩ := h.data3
  have hpairs := h.data4
  choose! f hf using hpairs
  refine ⟨⟨.ofNat n₁, .ofNat n₂, .ofNat n₃, pairOffsets.map fun i => .ofNat (f i), rfl⟩, h.length,
    h.dashes, ?_, ?_, ?_, ?_⟩
  · rwa [UInt32.toNat_ofNat_of_lt' (Nat.lt_succ_of_le h₁.le)]
  · rwa [UInt16.toNat_ofNat_of_lt' (Nat.lt_succ_of_le h₂.le)]
  · rwa [UInt16.toNat_ofNat_of_lt' (Nat.lt_succ_of_le h₃.le)]
  · rw [forall₂_map_right_iff, forall₂_same]
    intro i hi; rw [UInt8.toNat_ofNat_of_lt' (Nat.lt_succ_of_le (hf i hi).le)]
    exact hf i hi

theorem ReadAs.looseForm {g : Guid} (h : ReadAs ul str g) : LooseForm ul str := by
  refine ⟨h.length, h.dashes, ⟨_, h.data1⟩, ⟨_, h.data2⟩, ⟨_, h.data3⟩, ?_⟩
  intro i hi; obtain ⟨k, hk, rfl⟩ := getElem_of_mem hi
  have hk' : k < g.data4.length := h.data4.length_eq ▸ hk
  exact ⟨_, h.data4.get hk hk'⟩

theorem isDigit_field {i n : Nat} (h : ∀ j, i ≤ j → j < i + n → isDigit 16 (str.getD j 0) = true) :
    ∀ c ∈ field str i n, isDigit 16 c = true := by
  intro c hc; obtain ⟨k, hk, rfl⟩ := getElem_of_mem hc
  have hd := h (i + k) (by omega) (by simp [field] at hk; omega)
  simp only [field, length_take, length_drop] at hk
  rw [getD_eq_getElem _ _ (by omega)] at hd
  simpa [field] using hd

theorem reads_field {i n : Nat} (hn : 0 < n) (hn8 : n ≤ 8) (hlen : i + n < str.length)
    (hdash : str.getD (i + n) 0 = 45)
    (h : ∀ j, i ≤ j → j < i + n → isDigit 16 (str.getD j 0) = true) :
    Reads ul (16 ^ n - 1) (str.drop i) 16 45 (value 16 (field str i n)) := by
  have hdigits := isDigit_field h
  have hlength : (field str i n).length = n := by simp only [field, length_take, length_drop]; omega
  have hlt := value_lt (by decide) hdigits
  rw [hlength] at hlt
  have hsplit : str.drop i = field str i n ++ str.drop (i + n) := by
    rw [field, ← drop_drop, take_append_drop]
  rw [hsplit]
  refine reads_digits ?_ hdigits ?_ ?_ (by omega)
  · exact ne_nil_of_length_pos (by omega)
  · rw [← hdash, headD_eq_head?_getD, head?_drop, getD_eq_getElem?_getD]
  · calc 16 ^ n - 1 < 16 ^ n := Nat.sub_lt (Nat.pow_pos (by decide)) Nat.one_pos
      _ ≤ 16 ^ 8 := Nat.pow_le_pow_right (by decide) hn8
      _ ≤ 2 ^ ul.bits := two_pow_le ul

theorem reads_pairAt {i : Nat} (h₀ : isDigit 16 (str.getD i 0) = true)
    (h₁ : isDigit 16 (str.getD (i + 1) 0) = true) :
    Reads ul (2 ^ 8 - 1) (pairAt str i) 16 0 (value 16 (pairAt str i)) := by
  have hdigits : ∀ c ∈ pairAt str i, isDigit 16 c = true := by
    intro c hc; obtain rfl | rfl := mem_pair.mp hc
    · exact h₀
    · exact h₁
  have hlt := value_lt (by decide) hdigits
  have hmax : 2 ^ 8 - 1 < 2 ^ ul.bits := by have := two_pow_le ul; omega
  have hreads : Reads ul (2 ^ 8 - 1) (pairAt str i ++ []) 16 0 (value 16 (pairAt str i)) :=
    reads_digits (cons_ne_nil _ _) hdigits rfl hmax (Nat.le_pred_of_lt hlt)
  rwa [append_nil] at hreads

variable (ul) in
theorem HexForm.readAs (h : HexForm str) : ∃ g, ReadAs ul str g ∧ Denotes str g := by
  have hfield : ∀ i n, 0 < n → n ≤ 8 → i + n ∈ dashOffsets →
      (∀ j, i ≤ j → j < i + n → j ∉ dashOffsets) →
      Reads ul (16 ^ n - 1) (str.drop i) 16 45 (value 16 (field str i n)) := by
    intro i n hn hn8 hdash hno
    have hlt : i + n < 36 := (show ∀ k ∈ dashOffsets, k < 36 by decide) _ hdash
    refine reads_field hn hn8 (by rw [h.length]; exact hlt) (h.dashes _ hdash) fun j hj hjn => ?_
    exact h.digits j (by omega) (hno j hj hjn)
  have hpair : ∀ i ∈ pairOffsets,
      Reads ul (2 ^ 8 - 1) (pairAt str i) 16 0 (value 16 (pairAt str i)) := by
    intro i hi
    refine reads_pairAt (h.digits i ?_ ?_) (h.digits (i + 1) ?_ ?_) <;>
      · revert i
        decide
  have h₁ := hfield 0 8 (by decide) (by decide) (by decide) (by decide)
  have h₂ := hfield 9 4 (by decide) (by decide) (by decide) (by decide)
  have h₃ := hfield 14 4 (by decide) (by decide) (by decide) (by decide)
  have e₁ := UInt32.toNat_ofNat_of_lt' (Nat.lt_succ_of_le h₁.le)
  have e₂ := UInt16.toNat_ofNat_of_lt' (Nat.lt_succ_of_le h₂.le)
  have e₃ := UInt16.toNat_ofNat_of_lt' (Nat.lt_succ_of_le h₃.le)
  have e₄ : ∀ i ∈ pairOffsets,
      (UInt8.ofNat (value 16 (pairAt str i))).toNat = value 16 (pairAt str i) := fun i hi =>
    UInt8.toNat_ofNat_of_lt' (Nat.lt_succ_of_le (hpair i hi).le)
  refine ⟨⟨.ofNat (value 16 (field str 0 8)), .ofNat (value 16 (field str 9 4)),
    .ofNat (value 16 (field str 14 4)), pairOffsets.map fun i => .ofNat (value 16 (pairAt str i)),
    rfl⟩, ⟨h.length, h.dashes, ?_, ?_, ?_, ?_⟩, ⟨e₁, e₂, e₃, ?_⟩⟩
  · rw [e₁]; exact h₁
  · rw [e₂]; exact h₂
  · rw [e₃]; exact h₃
  · rw [forall₂_map_right_iff, forall₂_same]; intro i hi; rw [e₄ i hi]; exact hpair i hi
  · exact map_congr_left e₄

theorem parsedRight_iff : ParsedRight ul str ↔ (LooseForm ul str → HexForm str) := by
  constructor
  · intro h hloose; obtain ⟨g, hg⟩ := hloose.exists_readAs
    exact h.1.mp ⟨g, fromCString_eq_some_iff.mpr hg⟩
  intro h
  have hform : ∀ g, fromCString ul str = some g → HexForm str := fun g hg =>
    h (fromCString_eq_some_iff.mp hg).looseForm
  refine ⟨⟨fun ⟨g, hg⟩ => hform g hg, fun hhex => ?_⟩, fun g hg => ?_⟩
  · obtain ⟨g, hg, -⟩ := hhex.readAs ul; exact ⟨g, fromCString_eq_some_iff.mpr hg⟩
  · obtain ⟨g', hg', hden⟩ := (hform g hg).readAs ul
    rw [fromCString_eq_some_iff.mpr hg'] at hg
    cases hg; exact hden

theorem value_hex {k n : Nat} (h : n < 16 ^ k) : value 16 (hex k n) = n := by
  rw [hex, value_spell fun d hd => (lastDigits_lt (by decide) k n d hd).trans (by decide),
    ofDigits_lastDigits 16 k n h]

theorem isDigit_hex (k n : Nat) : ∀ c ∈ hex k n, isDigit 16 c = true :=
  isDigit_spell (by decide) (lastDigits_lt (by decide) k n)

theorem reads_hex {k n : Nat} {cEnd : UInt8} (hk : 0 < k) (hk8 : k ≤ 8) (hn : n < 16 ^ k)
    {rest : List UInt8} (hrest : rest.headD 0 = cEnd) :
    Reads ul (16 ^ k - 1) (hex k n ++ rest) 16 cEnd n := by
  have hne : hex k n ≠ [] := by
    rw [← length_pos_iff, hex, length_spell, length_lastDigits]
    exact hk
  have hmax : 16 ^ k - 1 < 2 ^ ul.bits := by
    have hle : 16 ^ k ≤ 16 ^ 8 := Nat.pow_le_pow_right (by decide) hk8
    have := two_pow_le ul
    omega
  have hle : value 16 (hex k n) ≤ 16 ^ k - 1 := by rw [value_hex hn]; omega
  have h := reads_digits hne (isDigit_hex k n) hrest hmax hle
  rwa [value_hex hn] at h

theorem reads_hex_byte (b : UInt8) : Reads ul (2 ^ 8 - 1) (hex 2 b.toNat) 16 0 b.toNat := by
  have h : Reads ul (16 ^ 2 - 1) (hex 2 b.toNat ++ []) 16 0 b.toNat :=
    reads_hex (by decide) (by decide) b.toNat_lt rfl
  rwa [append_nil] at h

theorem exists_bytes (g : Guid) : ∃ b₀ b₁ b₂ b₃ b₄ b₅ b₆ b₇,
    g.data4 = [b₀, b₁, b₂, b₃, b₄, b₅, b₆, b₇] := by
  obtain ⟨-, -, -, data4, hlen⟩ := g
  obtain _ | ⟨b₀, _ | ⟨b₁, _ | ⟨b₂, _ | ⟨b₃, _ | ⟨b₄, _ | ⟨b₅, _ | ⟨b₆, _ | ⟨b₇, _ | _⟩⟩⟩⟩⟩⟩⟩⟩ := data4
  case cons.cons.cons.cons.cons.cons.cons.cons.nil => exact ⟨b₀, b₁, b₂, b₃, b₄, b₅, b₆, b₇, rfl⟩
  all_goals simp at hlen

theorem fromCString_intoCString (g : Guid) : fromCString ul ((intoCString g).drop 2) = some g := by
  obtain ⟨b₀, b₁, b₂, b₃, b₄, b₅, b₆, b₇, hbytes⟩ := exists_bytes g
  obtain ⟨data1, data2, data3, data4, hlen⟩ := g
  subst hbytes
  refine fromCString_eq_some_iff.mpr ⟨rfl, ?_, ?_, ?_, ?_, ?_⟩
  · simp [dashOffsets, intoCString, hex, spell, lastDigits]
  · exact reads_hex (by decide) (by decide) data1.toNat_lt rfl
  · exact reads_hex (by decide) (by decide) data2.toNat_lt rfl
  · exact reads_hex (by decide) (by decide) data3.toNat_lt rfl
  · exact .cons (reads_hex_byte b₀) <| .cons (reads_hex_byte b₁) <| .cons (reads_hex_byte b₂) <|
      .cons (reads_hex_byte b₃) <| .cons (reads_hex_byte b₄) <| .cons (reads_hex_byte b₅) <|
      .cons (reads_hex_byte b₆) <| .cons (reads_hex_byte b₇) .nil

/-- A text is parsed right exactly if it is in the hexadecimal form or not even in the loose one, and
what was printed is parsed back. -/
theorem guid_text_exact_iff (ul : ULong) :
    (∀ str, ParsedRight ul str ↔ (LooseForm ul str → HexForm str)) ∧
      ∀ g, fromCString ul ((intoCString g).drop 2) = some g :=
  ⟨fun _ => parsedRight_iff, fromCString_intoCString⟩

def plusText : List UInt8 :=
  43 :: List.replicate 7 48 ++ 45 :: List.replicate 4 48 ++ 45 :: List.replicate 4 48 ++
    45 :: List.replicate 4 48 ++ 45 :: List.replicate 12 48

theorem sign_accepted_for_digit :
    fromCString ⟨64, Nat.le_add_left 32 32⟩ plusText =
      some ⟨0, 0, 0, [0, 0, 0, 0, 0, 0, 0, 0], rfl⟩ ∧ ¬ HexForm plusText := by
  refine ⟨rfl, fun h => ?_⟩
  exact absurd (h.digits 0 (by decide) (by decide)) (by decide)

end Guid
end S2OPC
