import S2OPC.Common.Buffer
import S2OPC.Common.GuidText

/-!
# S2OPC.Common.NodeIdText

`SOPC_NodeId_ToCString` and `SOPC_NodeId_InitializeFromCString`. A pointer into a text is what the text
is from there on. Identifiers are written as they are, so the parser can take a semicolon in one for
the end of a namespace.
-/

namespace S2OPC

open List

theorem ByteString.length_lt_of_some {bs : List UInt8} (h : bs.length < 2 ^ 31) :
    ∀ l ∈ some bs, l.length < 2 ^ 31 := fun _ hl => Option.some.inj hl ▸ h

/-- `SOPC_String_InitializeFromCString` and `SOPC_ByteString_CopyFromBytes` copy what has an `int32_t`
length. -/
def ByteString.ofBytes? (bs : List UInt8) : Option ByteString :=
  if h : bs.length < 2 ^ 31 then some ⟨some bs, length_lt_of_some h⟩ else none

namespace NodeId

open Numeral NumberText

variable (ul : ULong)

def namespaceText (ns : UInt16) : List UInt8 :=
  if ns = 0 then [] else [110, 115, 61] ++ decimal ns.toNat ++ [59]

def identifierText : Identifier → List UInt8
  | .numeric n => 105 :: 61 :: decimal n.toNat
  | .string s => 115 :: 61 :: s.cString
  | .guid g => Guid.intoCString g
  | .byteString s => 98 :: 61 :: s.toList

/-- The bytes of a ByteString are copied; the C string ends at the first null one. -/
def toCString (nid : NodeId) : List UInt8 :=
  (namespaceText nid.namespaceIndex ++ identifierText nid.data).takeWhile (· != 0)

def strncpy (s : List UInt8) (n : Nat) : List UInt8 :=
  let copied := (s.takeWhile (· != 0)).take n
  copied ++ List.replicate (n - copied.length) 0

def strchr (s : List UInt8) (c : UInt8) : Option (List UInt8) :=
  let p := s.dropWhile fun x => x != c && x != 0
  if p.head? = some c then some p else none

def identifierFromCString (ns : UInt16) (p : List UInt8) : Except Status NodeId :=
  if p.length < 2 ∨ p.getD 1 0 ≠ 61 then .error .nok
  else if p.getD 0 0 = 105 then
    (strtouint32 ul (p.drop 2) 10 0).elim (.error .nok) fun n => .ok ⟨ns, .numeric n⟩
  else if p.getD 0 0 = 115 then
    (ByteString.ofBytes? ((p.drop 2).takeWhile (· != 0))).elim (.error .nok) fun s =>
      .ok ⟨ns, .string s⟩
  else if p.getD 0 0 = 103 then
    (Guid.fromCString ul (p.drop 2)).elim (.error .nok) fun g => .ok ⟨ns, .guid g⟩
  else if p.getD 0 0 = 98 then
    if (p.drop 2).length = 0 then .error .invalidParameters
    else (ByteString.ofBytes? (p.drop 2)).elim (.error .invalidParameters) fun s =>
      .ok ⟨ns, .byteString s⟩
  else .error .nok

def initializeFromCString (cString : List UInt8) (len : Int32) : Except Status NodeId :=
  if len.toInt ≤ 0 then .error .invalidParameters
  else
    let sz := strncpy cString len.toInt.toNat
    match strchr sz 59 with
    | none => identifierFromCString ul 0 sz
    | some p =>
      if sz.take 3 ≠ [110, 115, 61] then .error .nok
      else
        match strtouint16 ul (sz.drop 3) 10 59 with
        | none => .error .nok
        | some ns => identifierFromCString ul ns (p.drop 1)

def RoundTrips (nid : NodeId) : Prop :=
  ∃ n, initializeFromCString ul (toCString nid) (Int32.ofNat (toCString nid).length) = .ok n ∧
    equal nid n = true

structure TextSafe (nid : NodeId) : Prop where
  -- The length of the text is an `int32_t`.
  fits : (namespaceText nid.namespaceIndex ++ identifierText nid.data).length < 2 ^ 31
  -- No semicolon in an identifier that no namespace is written before.
  semicolon : nid.namespaceIndex = 0 → ∀ s, nid.data = .string s ∨ nid.data = .byteString s →
    59 ∉ s.toList
  -- The bytes can be copied as a C string, and there are some.
  bytes : ∀ s, nid.data = .byteString s → s.toList ≠ [] ∧ 0 ∉ s.toList

variable {ul}

theorem takeWhile_of_not_mem {s : List UInt8} (h : 0 ∉ s) : s.takeWhile (· != 0) = s := by
  refine takeWhile_eq_self_iff.mpr fun c hc => ?_
  rw [bne_iff_ne]
  rintro rfl; exact h hc

theorem not_mem_takeWhile (s : List UInt8) : 0 ∉ s.takeWhile (· != 0) := by
  intro h; have := mem_takeWhile_imp h; simp at this

theorem strncpy_self {s : List UInt8} (h : 0 ∉ s) : strncpy s s.length = s := by
  simp [strncpy, takeWhile_of_not_mem h]

variable {c : UInt8} {n : NodeId} {cString : List UInt8}

theorem strchr_append {s rest : List UInt8} (hs : 0 ∉ s) (hc : c ∉ s) :
    strchr (s ++ c :: rest) c = some (c :: rest) := by
  have hdrop : (s ++ c :: rest).dropWhile (fun x => x != c && x != 0) = c :: rest := by
    refine dropWhile_append_rest (fun x hx => ?_) (fun x hx => ?_)
    · simp only [Bool.and_eq_true, bne_iff_ne]; exact ⟨fun h => hc (h ▸ hx), fun h => hs (h ▸ hx)⟩
    · cases hx; simp
  simp [strchr, hdrop]

theorem strchr_of_not_mem {s : List UInt8} (hc : c ∉ s) : strchr s c = none := by
  unfold strchr
  rw [if_neg]
  intro h; exact hc ((dropWhile_sublist _).subset (mem_of_head? h))

theorem strchr_of_mem {s : List UInt8} (hs : 0 ∉ s) (hc : c ∈ s) : ∃ p, strchr s c = some p := by
  obtain ⟨before, after, rfl, hbefore⟩ := eq_append_cons_of_mem hc
  exact ⟨_, strchr_append (fun h => hs (mem_append_left _ h)) hbefore⟩

theorem decimal_not_mem {n : Nat} (hc : isDigit 10 c = false) : c ∉ decimal n := by
  intro h; rw [isDigit_decimal n c h] at hc; cases hc

theorem namespaceText_not_zero (ns : UInt16) : 0 ∉ namespaceText ns := by
  unfold namespaceText
  split_ifs
  · exact not_mem_nil
  · have := decimal_not_mem (n := ns.toNat) (c := 0) rfl; simp [this]

theorem guid_chars (g : Guid) : ∀ c ∈ Guid.intoCString g,
    c = 103 ∨ c = 61 ∨ c = 45 ∨ isDigit 16 c = true := by
  intro c hc; simp only [Guid.intoCString, mem_cons, mem_append, mem_flatMap] at hc
  obtain rfl | rfl | hc | rfl | hc | rfl | hc | rfl | ⟨b, -, hc⟩ | rfl | ⟨b, -, hc⟩ := hc
  all_goals first
    | simp
    | exact .inr (.inr (.inr (Guid.isDigit_hex _ _ c hc)))

theorem guid_not_mem {g : Guid} (hc : c ≠ 103 ∧ c ≠ 61 ∧ c ≠ 45 ∧ isDigit 16 c = false) :
    c ∉ Guid.intoCString g := by
  intro h; obtain rfl | rfl | rfl | hd := guid_chars g c h
  · exact hc.1 rfl
  · exact hc.2.1 rfl
  · exact hc.2.2.1 rfl
  · rw [hd] at hc; exact Bool.noConfusion hc.2.2.2

variable {nid : NodeId} {s : ByteString}

theorem identifierText_not_zero (hbytes : ∀ s, nid.data = .byteString s → 0 ∉ s.toList) :
    0 ∉ identifierText nid.data := by
  cases hdata : nid.data with
  | numeric n => have := decimal_not_mem (n := n.toNat) (c := 0) rfl; simp [identifierText, this]
  | string s => have := not_mem_takeWhile s.toList; simp [identifierText, ByteString.cString, this]
  | guid g => exact guid_not_mem (by decide)
  | byteString s => have := hbytes s hdata; simp [identifierText, this]

theorem toCString_eq (hbytes : ∀ s, nid.data = .byteString s → 0 ∉ s.toList) :
    toCString nid = namespaceText nid.namespaceIndex ++ identifierText nid.data := by
  refine takeWhile_of_not_mem fun h => ?_
  obtain h | h := mem_append.mp h
  · exact namespaceText_not_zero _ h
  · exact identifierText_not_zero hbytes h

theorem length_decimal_le {n k : Nat} (hk : 0 < k) (h : n < 10 ^ k) : (decimal n).length ≤ k := by
  rw [decimal, length_spell]
  split_ifs
  · exact hk
  · exact (Nat.digits_length_le_iff (by decide) n).mpr h

theorem length_text_lt (nid : NodeId) :
    (namespaceText nid.namespaceIndex ++ identifierText nid.data).length < 2 ^ 32 := by
  have hns : (namespaceText nid.namespaceIndex).length ≤ 9 := by
    unfold namespaceText
    split_ifs
    · exact Nat.zero_le 9
    · have h := length_decimal_le (n := nid.namespaceIndex.toNat) (k := 5) (by decide)
        (nid.namespaceIndex.toNat_lt.trans (by decide))
      simp only [length_append, length_cons, length_nil]
      omega
  have hid : (identifierText nid.data).length < 2 ^ 31 + 2 := by
    cases nid.data with
    | numeric n =>
      have h := length_decimal_le (n := n.toNat) (k := 10) (by decide) (n.toNat_lt.trans (by decide))
      simp only [identifierText, length_cons]
      omega
    | string s =>
      have h := ( takeWhile_prefix (p := (· != 0)) (l := s.toList)).length_le
      have hs := s.length_toList_lt
      simp only [identifierText, length_cons, ByteString.cString]
      omega
    | guid g =>
      obtain ⟨b₀, b₁, b₂, b₃, b₄, b₅, b₆, b₇, hg⟩ := Guid.exists_bytes g
      have h : (Guid.intoCString g).length = 38 := by rw [Guid.intoCString, hg]; rfl
      simp only [identifierText, h]
      omega
    | byteString s => have hs := s.length_toList_lt; simp only [identifierText, length_cons]; omega
  rw [length_append]
  omega

theorem ofBytes?_eq_some {bs : List UInt8} (h : ByteString.ofBytes? bs = some s) :
    s.bytes = some bs := by
  unfold ByteString.ofBytes? at h
  split_ifs at h
  cases h; rfl

theorem exists_ofBytes? (s : ByteString) :
    ∃ t, ByteString.ofBytes? s.toList = some t ∧ t.bytes = some s.toList :=
  ⟨_, dif_pos s.length_toList_lt, rfl⟩

theorem copy_cases {t : ByteString} (h : t.bytes = some s.toList) :
    t = s ∨ s.length ≤ 0 ∧ t.length ≤ 0 := by
  obtain ⟨_ | bs, hs⟩ := s
  · right
    have ht : t.length = 0 := by rw [ByteString.length, h]; rfl
    exact ⟨show (-1 : Int) ≤ 0 by decide, ht.le⟩
  · exact .inl (ByteString.ext h)

theorem initializeFromCString_text {ns : UInt16} {p : List UInt8} (hp : 0 ∉ p)
    (hsep : ns = 0 → 59 ∉ p) (hpos : p ≠ [])
    (hlen : (namespaceText ns ++ p).length < 2 ^ 31) :
    initializeFromCString ul (namespaceText ns ++ p) (Int32.ofNat (namespaceText ns ++ p).length) =
      identifierFromCString ul ns p := by
  have hzero : 0 ∉ namespaceText ns ++ p := fun h =>
    (mem_append.mp h).elim (namespaceText_not_zero ns) hp
  have hpos' : 0 < (namespaceText ns ++ p).length := by
    have := length_pos_iff.mpr hpos
    rw [length_append]
    omega
  unfold initializeFromCString
  rw [Int32.toInt_ofNat_of_lt hlen, if_neg (by omega), Int.toNat_natCast, strncpy_self hzero]
  dsimp only
  by_cases hns : ns = 0
  · have htext : namespaceText ns = [] := if_pos hns
    rw [htext, nil_append, strchr_of_not_mem (hsep hns), hns]
  have htext : namespaceText ns ++ p = ([110, 115, 61] ++ decimal ns.toNat) ++ 59 :: p := by
    simp [namespaceText, hns]
  have hdec : ∀ c, isDigit 10 c = false → c ≠ 110 ∧ c ≠ 115 ∧ c ≠ 61 →
      c ∉ [110, 115, 61] ++ decimal ns.toNat := by
    intro c hc hne; have := decimal_not_mem (n := ns.toNat) hc
    simp [this, hne]
  have hread : strtouint16 ul (decimal ns.toNat ++ 59 :: p) 10 59 = some ns := by
    refine (strtouint16_eq_some_iff ⟨by decide, by decide⟩).mpr ?_
    exact reads_decimal rfl (by have := two_pow_le ul; omega) (Nat.le_pred_of_lt ns.toNat_lt)
  rw [htext, strchr_append (hdec 0 rfl (by decide)) (hdec 59 (by decide) (by decide))]
  dsimp only
  have hdrop : (([110, 115, 61] ++ decimal ns.toNat) ++ 59 :: p).drop 3 =
      decimal ns.toNat ++ 59 :: p := rfl
  rw [hdrop, hread]
  rfl

theorem identifierFromCString_text (hstring : ∀ s, nid.data = .string s → 0 ∉ s.toList)
    (hbytes : ∀ s, nid.data = .byteString s → s.toList ≠ []) :
    ∃ n, identifierFromCString ul nid.namespaceIndex (identifierText nid.data) = .ok n ∧
      equal nid n = true := by
  obtain ⟨ns, data⟩ := nid
  cases data with
  | numeric n =>
    have hread : strtouint32 ul (decimal n.toNat) 10 0 = some n := by
      refine (strtouint32_eq_some_iff Guid.endsNumber_null).mpr ?_
      have h : Reads ul (2 ^ 32 - 1) (decimal n.toNat ++ []) 10 0 n.toNat :=
        reads_decimal rfl (by have := two_pow_le ul; omega) (Nat.le_pred_of_lt n.toNat_lt)
      rwa [append_nil] at h
    refine ⟨⟨ns, .numeric n⟩, ?_, by simp [equal]⟩
    simp [identifierFromCString, identifierText, hread]
  | string s =>
    have hs := hstring s rfl
    obtain ⟨t, ht, hbytes⟩ := exists_ofBytes? s
    refine ⟨⟨ns, .string t⟩, ?_, ?_⟩
    · simp [identifierFromCString, identifierText, ByteString.cString, takeWhile_of_not_mem hs, ht]
    · obtain rfl | hempty := copy_cases hbytes
      · simp [equal, ByteString.stringEqual]
      · simp [equal, ByteString.stringEqual, hempty]
  | guid g =>
    refine ⟨⟨ns, .guid g⟩, ?_, by simp [equal]⟩
    have hread : Guid.fromCString ul ((Guid.intoCString g).drop 2) = some g :=
      Guid.fromCString_intoCString g
    have htext : identifierText (.guid g) = 103 :: 61 :: (Guid.intoCString g).drop 2 := rfl
    simp [identifierFromCString, htext, hread]
  | byteString s =>
    have hne := hbytes s rfl
    obtain ⟨t, ht, hbytes⟩ := exists_ofBytes? s
    refine ⟨⟨ns, .byteString t⟩, ?_, ?_⟩
    · simp [identifierFromCString, identifierText, hne, ht]
    · obtain rfl | hempty := copy_cases hbytes
      · simp [equal, ByteString.byteStringEqual]
      · simp [equal, ByteString.byteStringEqual, hempty]

theorem elim_error_eq_ok {α : Type*} {o : Option α} {e : Status} {f : α → NodeId} :
    (o.elim (.error e) fun a => .ok (f a)) = Except.ok n ↔ ∃ a, o = some a ∧ f a = n := by
  cases o with
  | none => simp
  | some a => simp

theorem bytes_of_identifierFromCString {ns : UInt16} {p : List UInt8}
    (h : identifierFromCString ul ns p = .ok n) (hdata : n.data = .byteString s) :
    s.toList ≠ [] ∧ s.toList ⊆ p := by
  unfold identifierFromCString at h
  split_ifs at h with _ _ _ _ _ hempty
  · obtain ⟨_, -, rfl⟩ := elim_error_eq_ok.mp h; cases hdata
  · obtain ⟨_, -, rfl⟩ := elim_error_eq_ok.mp h; cases hdata
  · obtain ⟨_, -, rfl⟩ := elim_error_eq_ok.mp h; cases hdata
  · obtain ⟨t, ht, rfl⟩ := elim_error_eq_ok.mp h
    cases hdata
    have hbytes : s.toList = p.drop 2 := by
      rw [ByteString.toList, ofBytes?_eq_some ht, Option.getD_some]
    rw [hbytes]
    exact ⟨fun hnil => hempty (by rw [hnil]; rfl), drop_subset 2 p⟩

theorem bytes_of_initializeFromCString {len : Int32}
    (h : initializeFromCString ul cString len = .ok n) (hdata : n.data = .byteString s) :
    s.toList ≠ [] ∧ s.toList ⊆ strncpy cString len.toInt.toNat := by
  unfold initializeFromCString at h
  split_ifs at h
  dsimp only at h
  cases hchr : strchr (strncpy cString len.toInt.toNat) 59 with
  | none => rw [hchr] at h; exact bytes_of_identifierFromCString h hdata
  | some p =>
    rw [hchr] at h
    split_ifs at h
    cases hns : strtouint16 ul ((strncpy cString len.toInt.toNat).drop 3) 10 59 with
    | none => rw [hns] at h; cases h
    | some ns =>
      rw [hns] at h
      obtain ⟨hne, hsub⟩ := bytes_of_identifierFromCString h hdata
      refine ⟨hne, fun c hc => ?_⟩
      have hp := drop_subset 1 p (hsub hc)
      unfold strchr at hchr
      dsimp only at hchr
      split_ifs at hchr
      cases hchr; exact (dropWhile_sublist _).subset hp

theorem length_of_ok (hlt : cString.length < 2 ^ 32)
    (h : initializeFromCString ul cString (Int32.ofNat cString.length) = .ok n) :
    0 < cString.length ∧ cString.length < 2 ^ 31 := by
  unfold initializeFromCString at h
  split_ifs at h with hlen
  rw [Int32.toInt_ofNat', Int.bmod_def] at hlen
  simp only [Int32.size] at hlen
  split_ifs at hlen <;> omega

theorem semicolon_of_ok (hzero : 0 ∉ cString) (hlt : cString.length < 2 ^ 31)
    (hhead : cString.take 3 ≠ [110, 115, 61])
    (h : initializeFromCString ul cString (Int32.ofNat cString.length) = .ok n) : 59 ∉ cString := by
  intro hmem; obtain ⟨p, hp⟩ := strchr_of_mem hzero hmem
  unfold initializeFromCString at h
  rw [Int32.toInt_ofNat_of_lt hlt, Int.toNat_natCast, strncpy_self hzero] at h
  dsimp only at h
  rw [hp] at h
  dsimp only at h
  split_ifs at h

theorem byteString_of_equal (hdata : nid.data = .byteString s) (h : equal nid n = true) :
    ∃ t, n.data = .byteString t ∧ (t.toList ≠ [] → s.toList = t.toList) := by
  unfold equal at h
  rw [hdata] at h
  cases hn : n.data with
  | byteString t =>
    refine ⟨t, rfl, fun hne => ?_⟩
    simp only [hn, Bool.and_eq_true, ByteString.byteStringEqual, Bool.or_eq_true, decide_eq_true_eq,
      beq_iff_eq] at h
    obtain hempty | heq := h.2
    · exact absurd (ByteString.toList_of_length_nonpos hempty.2) hne
    · rw [ByteString.toList, ByteString.toList, heq]
  | numeric _ => simp [hn] at h
  | string _ => simp [hn] at h
  | guid _ => simp [hn] at h

theorem identifierText_ne_nil (data : Identifier) : identifierText data ≠ [] := by
  cases data <;> exact cons_ne_nil _ _

theorem semicolon_not_mem
    (h : ∀ s, nid.data = .string s ∨ nid.data = .byteString s → 59 ∉ s.toList) :
    59 ∉ identifierText nid.data := by
  cases hdata : nid.data with
  | numeric n =>
    have := decimal_not_mem (n := n.toNat) (c := 59) (by decide)
    simp [identifierText, this]
  | string s =>
    have hs := h s (.inl hdata)
    have : 59 ∉ s.cString := fun hmem => hs ((takeWhile_sublist _).subset hmem)
    simp [identifierText, this]
  | guid g => exact guid_not_mem (by decide)
  | byteString s => have := h s (.inr hdata); simp [identifierText, this]

theorem TextSafe.roundTrips (h : TextSafe nid)
    (hstring : ∀ s, nid.data = .string s → 0 ∉ s.toList) : RoundTrips ul nid := by
  have hzero := identifierText_not_zero fun s hs => (h.bytes s hs).2
  obtain ⟨n, hn, hequal⟩ := identifierFromCString_text hstring fun s hs => (h.bytes s hs).1
  refine ⟨n, ?_, hequal⟩
  rw [toCString_eq fun s hs => (h.bytes s hs).2, initializeFromCString_text hzero
    (fun hns => semicolon_not_mem (h.semicolon hns)) (identifierText_ne_nil _) h.fits]
  exact hn

theorem RoundTrips.textSafe (h : RoundTrips ul nid)
    (hstring : ∀ s, nid.data = .string s → 0 ∉ s.toList) : TextSafe nid := by
  obtain ⟨n, hok, hequal⟩ := h
  have hzero : 0 ∉ toCString nid := not_mem_takeWhile _
  have hlt : (toCString nid).length < 2 ^ 32 :=
    ( takeWhile_prefix _).length_le.trans_lt (length_text_lt nid)
  have hlength := length_of_ok hlt hok
  have hbytes : ∀ s, nid.data = .byteString s → s.toList ≠ [] ∧ 0 ∉ s.toList := by
    intro s hs; obtain ⟨t, ht, heq⟩ := byteString_of_equal hs hequal
    obtain ⟨hne, hsub⟩ := bytes_of_initializeFromCString hok ht
    rw [Int32.toInt_ofNat_of_lt hlength.2, Int.toNat_natCast, strncpy_self hzero] at hsub
    rw [heq hne]
    exact ⟨hne, fun hmem => hzero (hsub hmem)⟩
  have htext := toCString_eq fun s hs => (hbytes s hs).2
  refine ⟨htext ▸ hlength.2, fun hns s hs hmem => ?_, hbytes⟩
  -- without a namespace the text starts with the letter of the identifier
  have hnil : namespaceText nid.namespaceIndex = [] := if_pos hns
  rw [hnil, nil_append] at htext
  obtain hs | hs := hs
  · have hid : identifierText nid.data = 115 :: 61 :: s.toList := by
      rw [hs, identifierText, ByteString.cString, takeWhile_of_not_mem (hstring s hs)]
    rw [htext, hid] at hok hzero hlength
    exact semicolon_of_ok hzero hlength.2 (by simp) hok (by simp [hmem])
  · have hid : identifierText nid.data = 98 :: 61 :: s.toList := by rw [hs, identifierText]
    rw [htext, hid] at hok hzero hlength
    exact semicolon_of_ok hzero hlength.2 (by simp) hok (by simp [hmem])

variable (ul) in
/-- The text of a NodeId, whose string has no null character, is parsed to an equal one exactly if the
text is not too long, has no semicolon where a namespace is looked for, and no bytes that are no text. -/
theorem nodeId_text_round_trips_iff (nid : NodeId)
    (hstring : ∀ s, nid.data = .string s → 0 ∉ s.toList) : RoundTrips ul nid ↔ TextSafe nid :=
  ⟨fun h => h.textSafe hstring, fun h => h.roundTrips hstring⟩

def semicolonString : NodeId := ⟨0, .string ⟨some [97, 59, 98], by simp⟩⟩

theorem semicolon_refused :
    initializeFromCString ⟨64, Nat.le_add_left 32 32⟩ (toCString semicolonString)
      (Int32.ofNat (toCString semicolonString).length) = .error .nok := by
  rfl

theorem nodeId_text_round_trips_iff_namespace_one :
    RoundTrips ⟨64, Nat.le_add_left 32 32⟩ ⟨1, semicolonString.data⟩ := by
  refine (nodeId_text_round_trips_iff _ _ fun s hs => ?_).mpr ⟨?_, ?_, ?_⟩
  · cases hs; decide
  · decide
  · intro h; cases h
  · intro s hs; cases hs

end NodeId
end S2OPC
