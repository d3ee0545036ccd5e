import S2OPC.Common.Buffer
import S2OPC.Common.BuiltinTypes

/-!
# S2OPC.Common.NodeIdCompare

`SOPC_NodeId_Compare` and `SOPC_NodeId_Hash`, on NodeIds as they are in memory: the pointer to a GUID
can be null, and NodeIds at one address are not looked into. Strings are compared as C strings and
hashed as bytes.

A comparison is an `Ordering`, the sign of the `int32_t`. `le` tells whether integers are little endian
in memory.
-/

namespace S2OPC

open Codec List

namespace ByteString

def stringCompare (left right : ByteString) : Ordering :=
  if left.length ≤ 0 ∧ right.length ≤ 0 then .eq
  else if left.length = right.length then compare left.cString right.cString
  else if left.length > right.length then .gt
  else .lt

def byteStringCompare (left right : ByteString) : Ordering :=
  if left.length = right.length ∨ left.length ≤ 0 ∧ right.length ≤ 0 then
    if left.length ≤ 0 ∧ right.length ≤ 0 then .eq
    else compare left.toList right.toList
  else if left.length > right.length then .gt
  else .lt

variable {s t : ByteString}

theorem length_pos_iff : 0 < s.length ↔ s.toList ≠ [] := by
  obtain ⟨_ | bs, hs⟩ := s
  · simp [length, toList]
  · simp [length, toList, length_pos_iff]

theorem length_eq_of_pos (h : 0 < s.length) : s.length = s.toList.length :=
  (bytes_of_length_pos h).2

theorem stringCompare_eq_iff : stringCompare s t = .eq ↔
    s.toList.length = t.toList.length ∧ s.cString = t.cString := by
  unfold stringCompare
  by_cases hs : 0 < s.length
  · rw [if_neg (by omega)]
    by_cases ht : 0 < t.length
    · have hsl := length_eq_of_pos hs
      have htl := length_eq_of_pos ht
      by_cases hlen : s.toList.length = t.toList.length
      · rw [if_pos (by omega), Std.compare_eq_iff_eq]; exact ⟨fun h => ⟨hlen, h⟩, And.right⟩
      · rw [if_neg (by omega)]
        split_ifs <;> simp [hlen]
    · have htl := toList_of_length_nonpos (show t.length ≤ 0 by omega)
      have hsl := length_eq_of_pos hs
      rw [if_neg (by omega), if_pos (by omega), htl, length_nil]
      simp only [reduceCtorEq, false_iff]
      omega
  · have hsl := toList_of_length_nonpos (show s.length ≤ 0 by omega)
    by_cases ht : 0 < t.length
    · have htl := length_eq_of_pos ht
      rw [if_neg (by omega), if_neg (by omega), if_neg (by omega), hsl, length_nil]
      simp only [reduceCtorEq, false_iff]
      omega
    · have htl := toList_of_length_nonpos (show t.length ≤ 0 by omega)
      rw [if_pos (by omega)]
      simp [cString, hsl, htl]

theorem normalise_eq_iff : s.normalise = t.normalise ↔ s.toList = t.toList := by
  have hnull : ∀ u : ByteString, u.toList = [] → u.normalise = null := fun u hu =>
    if_neg fun hpos => length_pos_iff.mp hpos hu
  have hself : ∀ u : ByteString, u.toList ≠ [] → u.normalise = u := fun u hu =>
    if_pos (length_pos_iff.mpr hu)
  have htoList : ∀ u : ByteString, u.normalise.toList = u.toList := by
    intro u
    by_cases hu : u.toList = []
    · rw [hnull u hu, hu]; rfl
    · rw [hself u hu]
  constructor
  · intro h; rw [← htoList s, h, htoList]
  intro h
  by_cases hs : s.toList = []
  · rw [hnull s hs, hnull t (h ▸ hs)]
  · rw [hself s hs, hself t (h ▸ hs)]
    refine ByteString.ext ?_
    rw [(bytes_of_length_pos (length_pos_iff.mpr hs)).1, h,
      (bytes_of_length_pos (length_pos_iff.mpr (h ▸ hs))).1]

theorem byteStringCompare_eq_iff : byteStringCompare s t = .eq ↔ s.toList = t.toList := by
  unfold byteStringCompare
  by_cases hs : 0 < s.length
  · by_cases ht : 0 < t.length
    · by_cases hlen : s.toList.length = t.toList.length
      · rw [if_pos (.inl (by rw [length_eq_of_pos hs, length_eq_of_pos ht, hlen])), if_neg (by omega),
          Std.compare_eq_iff_eq]
      · have hne : s.toList ≠ t.toList := fun h => hlen (congrArg List.length h)
        rw [if_neg (by rw [length_eq_of_pos hs, length_eq_of_pos ht]; omega)]
        split_ifs <;> simp [hne]
    · have htl := toList_of_length_nonpos (show t.length ≤ 0 by omega)
      rw [if_neg (by omega), if_pos (by omega), htl]
      simp [length_pos_iff.mp hs]
  · have hsl := toList_of_length_nonpos (show s.length ≤ 0 by omega)
    by_cases ht : 0 < t.length
    · rw [if_neg (by omega), if_neg (by omega), hsl]; simp [Ne.symm (length_pos_iff.mp ht)]
    · have htl := toList_of_length_nonpos (show t.length ≤ 0 by omega)
      rw [if_pos (by omega), if_pos (by omega), hsl, htl]
      simp

end ByteString

def nativeBytes (le : Bool) (width n : Nat) : List UInt8 :=
  if le then leBytes width n else (leBytes width n).reverse

theorem nativeBytes_inj {le : Bool} {w m n : Nat} (hm : m < 256 ^ w) (hn : n < 256 ^ w)
    (h : nativeBytes le w m = nativeBytes le w n) : m = n := by
  have hbytes : leBytes w m = leBytes w n := by
    cases le with
    | true => exact h
    | false => exact reverse_injective h
  have hval := congrArg ofLeBytes hbytes
  rwa [ofLeBytes_leBytes, ofLeBytes_leBytes, Nat.mod_eq_of_lt hm, Nat.mod_eq_of_lt hn] at hval

theorem length_nativeBytes (le : Bool) (w n : Nat) : (nativeBytes le w n).length = w := by
  cases le <;> simp [nativeBytes, length_leBytes]

def Guid.memory (le : Bool) (g : Guid) : List UInt8 :=
  nativeBytes le 4 g.data1.toNat ++ nativeBytes le 2 g.data2.toNat ++
    nativeBytes le 2 g.data3.toNat ++ g.data4

theorem Guid.memory_inj {le : Bool} {g h : Guid} (hmem : g.memory le = h.memory le) : g = h := by
  obtain ⟨a₁, a₂, a₃, a₄, ha⟩ := g
  obtain ⟨b₁, b₂, b₃, b₄, hb⟩ := h
  obtain ⟨hmem, rfl⟩ := append_inj' hmem (ha.trans hb.symm)
  obtain ⟨hmem, h₃⟩ := append_inj' hmem (by rw [length_nativeBytes, length_nativeBytes])
  obtain ⟨h₁, h₂⟩ := append_inj' hmem (by rw [length_nativeBytes, length_nativeBytes])
  obtain rfl := UInt32.toNat_inj.mp (nativeBytes_inj a₁.toNat_lt b₁.toNat_lt h₁)
  obtain rfl := UInt16.toNat_inj.mp (nativeBytes_inj a₂.toNat_lt b₂.toNat_lt h₂)
  obtain rfl := UInt16.toNat_inj.mp (nativeBytes_inj a₃.toNat_lt b₃.toNat_lt h₃)
  rfl

inductive RawIdentifier where
  | numeric (n : UInt32)
  | string (s : ByteString)
  | guid (g : Option Guid)
  | byteString (s : ByteString)
  deriving DecidableEq

structure RawNodeId where
  namespaceIndex : UInt16
  data : RawIdentifier
  deriving DecidableEq

namespace RawNodeId

def identifierType (nid : RawNodeId) : Nat :=
  match nid.data with
  | .numeric _ => 0
  | .string _ => 1
  | .guid _ => 2
  | .byteString _ => 3

def compareData (le : Bool) : RawIdentifier → RawIdentifier → Except Status Ordering
  | .numeric m, .numeric n => .ok (compare m n)
  | .string s, .string t => .ok (ByteString.stringCompare s t)
  | .guid (some g), .guid (some h) => .ok (compare (g.memory le) (h.memory le))
  | .byteString s, .byteString t => .ok (ByteString.byteStringCompare s t)
  | _, _ => .error .invalidParameters

def nodeIdCompare (le : Bool) (memory : Nat → RawNodeId) (left right : Nat) :
    Except Status Ordering :=
  if left = right then .ok .eq
  else if (memory left).namespaceIndex = (memory right).namespaceIndex ∧
      (memory left).identifierType = (memory right).identifierType then
    compareData le (memory left).data (memory right).data
  else if (memory left).identifierType = (memory right).identifierType then
    .ok (compare (memory left).namespaceIndex (memory right).namespaceIndex)
  else .ok (compare (memory left).identifierType (memory right).identifierType)

def djbHashStep (current : UInt64) (data : List UInt8) : UInt64 :=
  data.foldl (fun current b => (current <<< 5) + current + b.toUInt64) current

def djbHash (data : List UInt8) : UInt64 := djbHashStep 5381 data

def nodeIdHash (le : Bool) (nid : RawNodeId) : UInt64 :=
  let h := djbHash (nativeBytes le 4 nid.identifierType)
  let h := djbHashStep h (nativeBytes le 2 nid.namespaceIndex.toNat)
  match nid.data with
  | .numeric n => djbHashStep h (nativeBytes le 4 n.toNat)
  | .string s => if s.length > 0 then djbHashStep h s.toList else h
  | .guid (some g) => djbHashStep h (g.memory le)
  | .guid none => h
  | .byteString s => if s.length > 0 then djbHashStep h s.toList else h

def content : RawIdentifier → RawIdentifier
  | .string s => .string s.normalise
  | .byteString s => .byteString s.normalise
  | data => data

def sameContent (left right : RawNodeId) : Bool :=
  left.namespaceIndex == right.namespaceIndex && content left.data == content right.data

variable {le : Bool} {memory : Nat → RawNodeId} {a b : Nat}

theorem nodeIdCompare_self : nodeIdCompare le memory a a = .ok .eq := if_pos rfl

theorem nodeIdCompare_eq_iff (hab : a ≠ b) : nodeIdCompare le memory a b = .ok .eq ↔
    (memory a).namespaceIndex = (memory b).namespaceIndex ∧
      compareData le (memory a).data (memory b).data = .ok .eq := by
  have htype : ∀ x y : RawNodeId, compareData le x.data y.data = .ok .eq →
      x.identifierType = y.identifierType := by
    rintro ⟨_, x⟩ ⟨_, y⟩ h
    cases x <;> cases y <;> first | rfl | simp [compareData] at h
  unfold nodeIdCompare
  rw [if_neg hab]
  split_ifs with h₁ h₂
  · exact ⟨fun h => ⟨h₁.1, h⟩, And.right⟩
  · have hns : (memory a).namespaceIndex ≠ (memory b).namespaceIndex := fun h => h₁ ⟨h, h₂⟩
    simp [hns]
  · simp only [Except.ok.injEq, Std.compare_eq_iff_eq, h₂, false_iff, not_and]
    exact fun _ h => h₂ (htype _ _ h)

theorem compareData_guid {g h : Guid} :
    compareData le (.guid (some g)) (.guid (some h)) = .ok .eq ↔ g = h := by
  rw [compareData, Except.ok.injEq, Std.compare_eq_iff_eq]
  exact ⟨Guid.memory_inj, fun hgh => hgh ▸ rfl⟩

theorem sameContent_iff {left right : RawNodeId} : sameContent left right = true ↔
    left.namespaceIndex = right.namespaceIndex ∧ content left.data = content right.data := by
  simp [sameContent]

theorem nodeIdHash_eq {left right : RawNodeId} (h : sameContent left right = true) :
    nodeIdHash le left = nodeIdHash le right := by
  have hstring : ∀ (s t : ByteString) (h : UInt64), s.toList = t.toList →
      (if s.length > 0 then djbHashStep h s.toList else h) =
        if t.length > 0 then djbHashStep h t.toList else h := by
    intro s t h hst
    have hiff : s.length > 0 ↔ t.length > 0 := by
      rw [gt_iff_lt, ByteString.length_pos_iff, hst, gt_iff_lt, ByteString.length_pos_iff]
    simp [hiff, hst]
  obtain ⟨ns, x⟩ := left
  obtain ⟨ns', y⟩ := right
  obtain ⟨hns, hcontent⟩ := sameContent_iff.mp h
  subst hns
  cases x <;> cases y <;> first | cases hcontent | skip
  · rfl
  · rename_i s t
    exact hstring s t _ (ByteString.normalise_eq_iff.mp (RawIdentifier.string.inj hcontent))
  · rfl
  · rename_i s t
    exact hstring s t _ (ByteString.normalise_eq_iff.mp (RawIdentifier.byteString.inj hcontent))

structure ComparedRight (le : Bool) (memory : Nat → RawNodeId) (a b : Nat) : Prop where
  hash_eq : nodeIdCompare le memory a b = .ok .eq →
    nodeIdHash le (memory a) = nodeIdHash le (memory b)
  equal_iff : nodeIdCompare le memory a b = .ok .eq ↔ sameContent (memory a) (memory b) = true

/-- Two NodeIds that can be compared: strings do not differ after a null character only, and there is
a GUID to compare. -/
structure Comparable (memory : Nat → RawNodeId) (a b : Nat) : Prop where
  strings : ∀ s t, (memory a).namespaceIndex = (memory b).namespaceIndex →
    (memory a).data = .string s → (memory b).data = .string t →
    s.toList.length = t.toList.length → s.cString = t.cString → s.toList = t.toList
  guids : a ≠ b → (memory a).namespaceIndex = (memory b).namespaceIndex →
    ¬ ((memory a).data = .guid none ∧ (memory b).data = .guid none)

theorem Comparable.compareData_iff (h : Comparable memory a b) (hab : a ≠ b)
    (hns : (memory a).namespaceIndex = (memory b).namespaceIndex) :
    compareData le (memory a).data (memory b).data = .ok .eq ↔
      content (memory a).data = content (memory b).data := by
  cases ha : (memory a).data with
  | numeric m =>
    cases hb : (memory b).data with
    | numeric n => simp [compareData, content]
    | _ => simp [compareData, content]
  | string s =>
    cases hb : (memory b).data with
    | string t =>
      rw [compareData, Except.ok.injEq, ByteString.stringCompare_eq_iff, content, content,
        RawIdentifier.string.injEq, ByteString.normalise_eq_iff]
      constructor
      · rintro ⟨hlen, hc⟩; exact h.strings s t hns ha hb hlen hc
      · intro hst; rw [ByteString.cString, ByteString.cString, hst]; exact ⟨rfl, rfl⟩
    | _ => simp [compareData, content]
  | guid g =>
    cases hb : (memory b).data with
    | guid g' =>
      cases g with
      | none =>
        cases g' with
        | none => exact absurd ⟨ha, hb⟩ (h.guids hab hns)
        | some g' => simp [compareData, content]
      | some g =>
        cases g' with
        | none => simp [compareData, content]
        | some g' => rw [compareData_guid]; simp [content]
    | _ => simp [compareData, content]
  | byteString s =>
    cases hb : (memory b).data with
    | byteString t =>
      rw [compareData, Except.ok.injEq, ByteString.byteStringCompare_eq_iff, content, content,
        RawIdentifier.byteString.injEq, ByteString.normalise_eq_iff]
    | _ => simp [compareData, content]

theorem Comparable.equal_iff (h : Comparable memory a b) :
    nodeIdCompare le memory a b = .ok .eq ↔ sameContent (memory a) (memory b) = true := by
  by_cases hab : a = b
  · subst hab; simp [nodeIdCompare_self, sameContent]
  · rw [nodeIdCompare_eq_iff hab, sameContent_iff]
    exact and_congr_right fun hns => h.compareData_iff hab hns

theorem comparedRight_iff : ComparedRight le memory a b ↔ Comparable memory a b := by
  constructor
  · intro h
    constructor
    · intro s t hns ha hb hlen hc
      by_cases hab : a = b
      · subst hab; rw [ha] at hb; cases hb; rfl
      have heq : nodeIdCompare le memory a b = .ok .eq := by
        rw [nodeIdCompare_eq_iff hab, ha, hb, compareData, Except.ok.injEq,
          ByteString.stringCompare_eq_iff]
        exact ⟨hns, hlen, hc⟩
      have hcontent := (sameContent_iff.mp (h.equal_iff.mp heq)).2
      rw [ha, hb] at hcontent
      exact ByteString.normalise_eq_iff.mp (RawIdentifier.string.inj hcontent)
    · rintro hab hns ⟨ha, hb⟩
      have hsame : sameContent (memory a) (memory b) = true := by
        rw [sameContent_iff, ha, hb]
        exact ⟨hns, rfl⟩
      have heq := h.equal_iff.mpr hsame
      rw [nodeIdCompare_eq_iff hab, ha, hb] at heq
      cases heq.2
  · intro h; exact ⟨fun heq => nodeIdHash_eq (h.equal_iff.mp heq), h.equal_iff⟩

end RawNodeId
end S2OPC
