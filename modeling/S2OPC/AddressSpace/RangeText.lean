import S2OPC.AddressSpace.Range
import S2OPC.Common.NumberText

/-!
# S2OPC.AddressSpace.RangeText

The parser of `sopc_numeric_range.c` with its position and tokens (`ParseCtx`), and the texts it
accepts (`IsRange`).

The parser is brought in two steps to the grammar. It does what `NumericRange.parse` does on the
characters that are left (`parse_eq`), and that function accepts a text with the dimensions it
spells (`parseDimensions_eq_some_iff`).
-/

namespace S2OPC

open List Option

structure IsIndex (text : List UInt8) (n : UInt32) : Prop where
  length_pos : 1 ≤ text.length
  length_le : text.length ≤ 20
  digits : ∀ c ∈ text, Numeral.isDigit 10 c = true
  value : Numeral.value 10 text = n.toNat

inductive IsDimension : List UInt8 → Dimension → Prop
  | index {text : List UInt8} {n : UInt32} (h : IsIndex text n) :
      IsDimension text ⟨n, n, UInt32.le_refl n⟩
  | range {text text' : List UInt8} {start stop : UInt32} (h : IsIndex text start)
      (h' : IsIndex text' stop) (hlt : start < stop) :
      IsDimension (text ++ 58 :: text') ⟨start, stop, UInt32.le_of_lt hlt⟩

inductive IsRange : List UInt8 → List Dimension → Prop
  | one {text : List UInt8} {dim : Dimension} (h : IsDimension text dim) : IsRange text [dim]
  | more {text rest : List UInt8} {dim : Dimension} {dims : List Dimension}
      (h : IsDimension text dim) (hrest : IsRange rest dims) :
      IsRange (text ++ 44 :: rest) (dim :: dims)

namespace RangeText

open NumberText

inductive TokenType where
  | start
  | colon
  | comma
  | eof
  | error
  deriving DecidableEq

/-- `struct parse_ctx_t`; `data_len` is the length of `data`. -/
structure ParseCtx where
  data : List UInt8
  idx : Nat
  lastToken : TokenType
  tokenLen : Nat

open NumericRange (isDigit)

def lexDigitLoop : List UInt8 → ParseCtx → ParseCtx
  | [], ctx => ctx
  | c :: rest, ctx =>
    if isDigit c then lexDigitLoop rest { ctx with tokenLen := ctx.tokenLen + 1, idx := ctx.idx + 1 }
    else ctx

def lexDigit (ctx : ParseCtx) : ParseCtx :=
  lexDigitLoop (ctx.data.drop ctx.idx) { ctx with tokenLen := 0 }

def lexHelper (ctx : ParseCtx) : TokenType × ParseCtx :=
  if ctx.lastToken = .eof then (.eof, ctx)
  else if ctx.idx = ctx.data.length then (.eof, { ctx with lastToken := .eof, tokenLen := 0 })
  else
    let c := ctx.data.getD ctx.idx 0
    -- the last token is not changed by digits
    if isDigit c then ((lexDigit ctx).lastToken, lexDigit ctx)
    else if c = 58 then
      (.colon, { ctx with lastToken := .colon, tokenLen := 1, idx := ctx.idx + 1 })
    else if c = 44 then
      (.comma, { ctx with lastToken := .comma, tokenLen := 1, idx := ctx.idx + 1 })
    else (.error, { ctx with lastToken := .error, tokenLen := 0 })

def lex (ctx : ParseCtx) (consume : Bool) : TokenType × ParseCtx :=
  let (token, ctx') := lexHelper ctx
  (token, if consume then ctx' else { ctx' with idx := ctx.idx })

theorem start_le_stop {start stop : UInt32} (h : ¬ stop ≤ start) : start ≤ stop :=
  UInt32.le_of_lt (UInt32.not_le.mp h)

section Parse

variable (ul : NumberText.ULong)

def parseIndex (ctx : ParseCtx) : Option (UInt32 × ParseCtx) :=
  let ctx' := lexDigit ctx
  if ctx'.tokenLen = 0 ∨ 21 ≤ ctx'.tokenLen then none
  else
    (strtouint32 ul ((ctx.data.drop ctx.idx).take ctx'.tokenLen) 10 0).map (·, ctx')

def parseDimension (ctx : ParseCtx) : Option (Dimension × ParseCtx) :=
  match parseIndex ul ctx with
  | none => none
  | some (start, ctx) =>
    let (token, ctx) := lex ctx false
    if token = .colon then
      match parseIndex ul (lex ctx true).2 with
      | none => none
      | some (stop, ctx) =>
        if h : stop ≤ start then none
        else some (⟨start, stop, start_le_stop h⟩, ctx)
    else some (⟨start, start, UInt32.le_refl start⟩, ctx)

def parseOneDimension (ctx : ParseCtx) (dims : List Dimension) :
    Except Status (Bool × List Dimension × ParseCtx) :=
  match parseDimension ul ctx with
  | none => .error .nok
  | some (dim, ctx) =>
    let (next, ctx) := lex ctx true
    if next = .comma then .ok (true, dims ++ [dim], ctx)
    else if next = .eof then .ok (false, dims ++ [dim], ctx)
    else .error .nok

def parseDimensions : Nat → ParseCtx → List Dimension → Except Status (List Dimension)
  | 0, _, _ => .error .nok
  | fuel + 1, ctx, dims =>
    match parseOneDimension ul ctx dims with
    | .error status => .error status
    | .ok (true, dims, ctx) => parseDimensions fuel ctx dims
    | .ok (false, dims, _) => .ok dims

def parse (alloc : Bool) (text : List UInt8) : Except Status (List Dimension) :=
  if alloc then
    match parseDimensions ul (text.length + 1) ⟨text, 0, .start, 0⟩ [] with
    | .error status => .error status
    | .ok dims => if dims.length = 0 then .error .nok else .ok dims
  else .error .outOfMemory

end Parse

structure ParseCtx.At (ctx : ParseCtx) (rest : List UInt8) : Prop where
  idx_le : ctx.idx ≤ ctx.data.length
  drop_eq : ctx.data.drop ctx.idx = rest
  eof : ctx.lastToken = .eof → rest = []

def NoDigit (rest : List UInt8) : Prop := ∀ c ∈ rest.head?, isDigit c = false

namespace ParseCtx.At

variable {ctx : ParseCtx} {c : UInt8} {rest : List UInt8}

theorem idx_lt (h : ctx.At (c :: rest)) : ctx.idx < ctx.data.length := by
  have hlength := congrArg List.length h.drop_eq
  simp only [length_drop, length_cons] at hlength
  omega

theorem getD (h : ctx.At (c :: rest)) : ctx.data.getD ctx.idx 0 = c := by
  rw [getD_eq_getElem?_getD, ← head?_drop, h.drop_eq]; rfl

theorem drop_succ (h : ctx.At (c :: rest)) : ctx.data.drop (ctx.idx + 1) = rest := by
  rw [← drop_drop, h.drop_eq]; rfl

theorem lastToken_ne (h : ctx.At (c :: rest)) : ctx.lastToken ≠ .eof := fun he => by
  cases h.eof he

variable {token : TokenType}

theorem next (h : ctx.At (c :: rest)) (htoken : token ≠ .eof) (n : Nat) :
    ({ ctx with lastToken := token, tokenLen := n, idx := ctx.idx + 1 } : ParseCtx).At rest :=
  ⟨h.idx_lt, h.drop_succ, fun he => absurd he htoken⟩

theorem peek (h : ctx.At rest) (htoken : token = .eof → rest = []) (n : Nat) :
    ({ ctx with lastToken := token, tokenLen := n } : ParseCtx).At rest :=
  ⟨h.idx_le, h.drop_eq, htoken⟩

end ParseCtx.At

variable {text rest : List UInt8}

theorem lexDigitLoop_at : ∀ {ctx : ParseCtx}, ctx.At text →
    (lexDigitLoop text ctx).At (text.dropWhile isDigit) ∧
      (lexDigitLoop text ctx).tokenLen = ctx.tokenLen + (text.takeWhile isDigit).length := by
  induction text with
  | nil => exact fun h => ⟨h, rfl⟩
  | cons c rest ih =>
    intro ctx h
    cases hc : isDigit c with
    | false => rw [lexDigitLoop, if_neg (by simp [hc])]; simp [hc, h]
    | true =>
      rw [lexDigitLoop, if_pos hc]
      obtain ⟨hat, hlen⟩ := ih (h.next h.lastToken_ne (ctx.tokenLen + 1))
      rw [dropWhile_cons_of_pos hc, takeWhile_cons_of_pos hc, length_cons]
      exact ⟨hat, by rw [hlen]; dsimp only; omega⟩

variable {ctx : ParseCtx}

theorem lexDigit_at (h : ctx.At text) :
    (lexDigit ctx).At (text.dropWhile isDigit) ∧
      (lexDigit ctx).tokenLen = (text.takeWhile isDigit).length := by
  unfold lexDigit
  rw [h.drop_eq]
  obtain ⟨hat, hlen⟩ := lexDigitLoop_at (h.peek h.eof 0)
  exact ⟨hat, by rw [hlen]; exact Nat.zero_add _⟩

def tokenOf : List UInt8 → TokenType × List UInt8
  | [] => (.eof, [])
  | c :: rest =>
    if c = 58 then (.colon, rest) else if c = 44 then (.comma, rest) else (.error, c :: rest)

theorem lexHelper_at (h : ctx.At rest) (hdigit : NoDigit rest) :
    (lexHelper ctx).1 = (tokenOf rest).1 ∧ (lexHelper ctx).2.At (tokenOf rest).2 ∧
      ({ (lexHelper ctx).2 with idx := ctx.idx } : ParseCtx).At rest := by
  unfold lexHelper
  cases rest with
  | nil =>
    have hidx : ctx.idx = ctx.data.length := Nat.le_antisymm h.idx_le (drop_eq_nil_iff.mp h.drop_eq)
    by_cases heof : ctx.lastToken = .eof
    · rw [if_pos heof]; exact ⟨rfl, h, h⟩
    · rw [if_neg heof, if_pos hidx]; exact ⟨rfl, h.peek (fun _ => rfl) 0, h.peek (fun _ => rfl) 0⟩
  | cons c rest =>
    rw [if_neg h.lastToken_ne, if_neg (Nat.ne_of_lt h.idx_lt)]
    have hc : isDigit c = false := hdigit c rfl
    simp only [h.getD, hc, Bool.false_eq_true, if_false, tokenOf]
    by_cases hcolon : c = 58
    · simp only [if_pos hcolon]; exact ⟨trivial, h.next (by decide) 1, h.peek (by simp) 1⟩
    · simp only [if_neg hcolon]
      by_cases hcomma : c = 44
      · simp only [if_pos hcomma]; exact ⟨trivial, h.next (by decide) 1, h.peek (by simp) 1⟩
      · simp only [if_neg hcomma]; exact ⟨trivial, h.peek (by simp) 0, h.peek (by simp) 0⟩

theorem lex_at (h : ctx.At rest) (hdigit : NoDigit rest) :
    (lex ctx true).1 = (tokenOf rest).1 ∧ (lex ctx true).2.At (tokenOf rest).2 :=
  ⟨(lexHelper_at h hdigit).1, (lexHelper_at h hdigit).2.1⟩

theorem lex_peek (h : ctx.At rest) (hdigit : NoDigit rest) :
    (lex ctx false).1 = (tokenOf rest).1 ∧ (lex ctx false).2.At rest :=
  ⟨(lexHelper_at h hdigit).1, (lexHelper_at h hdigit).2.2⟩

theorem digit?_of_isDigit {c : UInt8} (h : isDigit c = true) :
    Numeral.digit? c = some (c.toNat - 48) := by
  have hrange : 48 ≤ c ∧ c ≤ 57 := by simpa [isDigit] using h
  rw [Numeral.digit?, if_pos hrange]

theorem isDigit_eq (c : UInt8) : Numeral.isDigit 10 c = isDigit c := by
  cases hc : isDigit c with
  | true =>
    have hle : c.toNat ≤ 57 := by
      simp only [isDigit, Bool.and_eq_true, decide_eq_true_eq, UInt8.le_iff_toNat_le] at hc
      exact hc.2
    exact Numeral.isDigit_iff.mpr ⟨_, digit?_of_isDigit hc, by omega⟩
  | false =>
    -- a letter is a digit of a greater base
    have hrange : ¬ (48 ≤ c ∧ c ≤ 57) := by simpa [isDigit] using hc
    rw [Numeral.isDigit, Numeral.digit?, if_neg hrange]
    simp only [UInt8.le_iff_toNat_le, UInt8.reduceToNat]
    split_ifs with hlower hupper
    · simp only [any_some, decide_eq_false_iff_not, not_lt]; omega
    · simp only [any_some, decide_eq_false_iff_not, not_lt]; omega
    · rfl

theorem digitsValue_eq (ds : List UInt8) (h : ∀ c ∈ ds, isDigit c = true) :
    NumericRange.digitsValue ds = Numeral.value 10 ds := by
  induction ds using List.reverseRecOn with
  | nil => rfl
  | append_singleton ds c ih =>
    have hds := ih fun d hd => h d (mem_append_left _ hd)
    have hc := digit?_of_isDigit (h c (by simp))
    unfold Numeral.value at hds ⊢
    rw [Numeral.digits_append, Nat.ofDigits_append, ← hds]
    simp [NumericRange.digitsValue, Numeral.digits, hc, Nat.add_comm]

variable {ds : List UInt8} {n : UInt32} {dim : Dimension} {fuel : Nat} {dims : List Dimension}

theorem strtouint32_digits (ul : NumberText.ULong) (hne : ds ≠ [])
    (h : ∀ c ∈ ds, Numeral.isDigit 10 c = true) :
    strtouint32 ul ds 10 0 =
      if Numeral.value 10 ds < 2 ^ 32 then some (UInt32.ofNat (Numeral.value 10 ds)) else none := by
  have hscan : Numeral.scan 10 ds = some ⟨false, ds, []⟩ := by
    have hspelled := Numeral.spelled_of_digits hne h
    have hscan : Numeral.scan 10 ([] ++ [] ++ [] ++ ds ++ []) = _ :=
      Numeral.scan_spelled hspelled (by simp) (by simp)
    simpa using hscan
  have hneg : (⟨false, ds, []⟩ : Numeral.Scanned).negative = decide (([] : List UInt8) = [45]) := rfl
  have hpow := two_pow_le ul
  rw [strtouint32, strtouint, strtoul_of_scan hscan hneg]
  by_cases hlt : Numeral.value 10 ds < 2 ^ 32
  · have hrange : ¬ 2 ^ ul.bits ≤ Numeral.value 10 ds := by omega
    rw [if_pos hlt, if_neg hrange]
    simp [unsigned]
    omega
  · rw [if_neg hlt]
    by_cases hrange : 2 ^ ul.bits ≤ Numeral.value 10 ds
    · rw [if_pos hrange]; simp
    · rw [if_neg hrange]; simp [unsigned]; omega

def Follows {α : Type} (x : α × List UInt8) (y : α × ParseCtx) : Prop :=
  x.1 = y.1 ∧ y.2.At x.2 ∧ NoDigit x.2

theorem rel_cases {α β : Type} {R : α → β → Prop} {x : Option α} {y : Option β}
    (h : Option.Rel R x y) : (x = none ∧ y = none) ∨ ∃ a b, x = some a ∧ y = some b ∧ R a b := by
  cases h with
  | none => exact .inl ⟨rfl, rfl⟩
  | some h => exact .inr ⟨_, _, rfl, rfl, h⟩

theorem noDigit_dropWhile (text : List UInt8) : NoDigit (text.dropWhile isDigit) :=
  Numeral.head?_dropWhile text

theorem isDigit_takeWhile (text : List UInt8) :
    ∀ c ∈ text.takeWhile isDigit, Numeral.isDigit 10 c = true := fun c hc =>
  (isDigit_eq c).trans (mem_takeWhile_imp hc)

section Agreement

variable (ul : NumberText.ULong) {ctx : ParseCtx} {text : List UInt8}

theorem parseIndex_follows (h : ctx.At text) :
    Option.Rel Follows (NumericRange.parseIndex text) (parseIndex ul ctx) := by
  obtain ⟨hat, hlen⟩ := lexDigit_at h
  have htake : text.take (text.takeWhile isDigit).length = text.takeWhile isDigit :=
    (prefix_iff_eq_take.mp ( takeWhile_prefix isDigit)).symm
  have hvalue := digitsValue_eq (text.takeWhile isDigit) fun c hc => mem_takeWhile_imp hc
  unfold parseIndex NumericRange.parseIndex
  simp only [hlen, h.drop_eq, htake, hvalue]
  by_cases hbad : (text.takeWhile isDigit).length = 0 ∨ 21 ≤ (text.takeWhile isDigit).length
  · rw [if_pos hbad, if_pos (by omega)]; exact .none
  have hne : text.takeWhile isDigit ≠ [] := fun he => hbad (.inl (by rw [he]; rfl))
  rw [if_neg hbad, strtouint32_digits ul hne (isDigit_takeWhile text)]
  by_cases hlt : Numeral.value 10 (text.takeWhile isDigit) < 2 ^ 32
  · rw [if_neg (by omega), if_pos hlt]; exact .some ⟨rfl, hat, noDigit_dropWhile text⟩
  · rw [if_pos (by omega), if_neg hlt]; exact .none

theorem tokenOf_colon_iff : (tokenOf rest).1 = .colon ↔ ∃ rest', rest = 58 :: rest' := by
  cases rest with
  | nil => simp [tokenOf]
  | cons c rest =>
    simp only [tokenOf]
    split_ifs with h h' <;> simp [h]

theorem parseDimension_of_ne {start : UInt32}
    (h : NumericRange.parseIndex text = some (start, rest)) (hne : ∀ rest', rest ≠ 58 :: rest') :
    NumericRange.parseDimension text = some (⟨start, start, UInt32.le_refl start⟩, rest) := by
  unfold NumericRange.parseDimension
  rw [h]
  split
  next heq => cases heq
  next heq =>
    cases heq; exact absurd rfl (hne _)
  next heq =>
    cases heq; rfl

theorem parseDimension_follows (h : ctx.At text) :
    Option.Rel Follows (NumericRange.parseDimension text) (parseDimension ul ctx) := by
  unfold parseDimension
  obtain ⟨hx, hy⟩ | ⟨⟨start, rest⟩, ⟨n, ctx'⟩, hx, hy, hn, hat, hdigit⟩ :=
    rel_cases (parseIndex_follows ul h)
  · simp only [NumericRange.parseDimension, hx, hy]; exact .none
  subst hn; obtain ⟨htoken, hpeek⟩ := lex_peek hat hdigit
  simp only [hy, htoken]
  by_cases hcolon : (tokenOf rest).1 = .colon
  · rw [if_pos hcolon]
    obtain ⟨rest', rfl⟩ := tokenOf_colon_iff.mp hcolon
    have hsecond : (lex (lex ctx' false).2 true).2.At rest' := (lex_at hpeek hdigit).2
    simp only [NumericRange.parseDimension, hx]
    obtain ⟨hx', hy'⟩ | ⟨⟨stop, rest''⟩, ⟨m, ctx''⟩, hx', hy', hm, hat', hdigit'⟩ :=
      rel_cases (parseIndex_follows ul hsecond)
    · simp only [hx', hy']; exact .none
    dsimp only at hm hat' hdigit'
    subst hm; simp only [hx', hy']
    by_cases hle : stop ≤ start
    · rw [dif_pos hle, dif_pos hle]; exact .none
    · rw [dif_neg hle, dif_neg hle]; exact .some ⟨rfl, hat', hdigit'⟩
  · rw [if_neg hcolon,
      parseDimension_of_ne hx fun rest' he => hcolon (tokenOf_colon_iff.mpr ⟨rest', he⟩)]
    exact .some ⟨rfl, hpeek, hdigit⟩

variable {fuel : Nat}

theorem parseDimensions_other {dim : Dimension} {c : UInt8}
    (h : NumericRange.parseDimension text = some (dim, c :: rest)) (hc : c ≠ 44) :
    NumericRange.parseDimensions (fuel + 1) text = none := by
  unfold NumericRange.parseDimensions
  rw [h]
  split
  next => rfl
  next heq => cases heq
  next heq =>
    cases heq; exact absurd rfl hc
  next => rfl

theorem parseDimensions_eq (fuel : Nat) {ctx : ParseCtx} {text : List UInt8}
    (dims : List Dimension) (h : ctx.At text) : parseDimensions ul fuel ctx dims =
      (NumericRange.parseDimensions fuel text).elim (.error .nok) fun more => .ok (dims ++ more) := by
  induction fuel generalizing ctx text dims with
  | zero => rfl
  | succ fuel ih =>
    unfold parseDimensions parseOneDimension
    obtain ⟨hx, hy⟩ | ⟨⟨dim, rest⟩, ⟨_, ctx'⟩, hx, hy, rfl, hat, hdigit⟩ :=
      rel_cases (parseDimension_follows ul h)
    · simp only [NumericRange.parseDimensions, hx, hy]; rfl
    obtain ⟨htoken, hnext⟩ := lex_at hat hdigit
    simp only [hy, htoken]
    cases rest with
    | nil => simp [NumericRange.parseDimensions, hx, tokenOf]
    | cons c rest =>
      by_cases hcomma : c = 44
      · subst hcomma
        have hrest : parseDimensions ul fuel (lex ctx' true).2 (dims ++ [dim]) = _ :=
          ih (dims ++ [dim]) hnext
        have htoken : tokenOf (44 :: rest) = (.comma, rest) := rfl
        simp only [NumericRange.parseDimensions, hx, htoken, if_true, hrest]
        cases NumericRange.parseDimensions fuel rest with
        | none => rfl
        | some more => simp
      · rw [parseDimensions_other hx hcomma]
        by_cases hcolon : c = 58
        · simp [tokenOf, hcolon]
        · simp [tokenOf, hcolon, hcomma]

theorem parseDimensions_ne_nil {dims : List Dimension}
    (h : NumericRange.parseDimensions fuel text = some dims) : dims ≠ [] := by
  cases fuel with
  | zero => cases h
  | succ fuel =>
    unfold NumericRange.parseDimensions at h
    split at h
    next => cases h
    next => cases h; simp
    next =>
      obtain ⟨more, -, rfl⟩ := map_eq_some_iff.mp h
      simp
    next => cases h

theorem parse_eq (alloc : Bool) (text : List UInt8) :
    parse ul alloc text = NumericRange.parse alloc text := by
  unfold parse NumericRange.parse
  cases alloc with
  | false => rfl
  | true =>
    have hat : (⟨text, 0, .start, 0⟩ : ParseCtx).At text := ⟨Nat.zero_le _, rfl, by simp⟩
    rw [if_pos rfl, if_pos rfl, parseDimensions_eq ul (text.length + 1) [] hat]
    cases hdims : NumericRange.parseDimensions (text.length + 1) text with
    | none => rfl
    | some dims => simp [parseDimensions_ne_nil hdims]

end Agreement

theorem parseIndex_eq_some (h : NumericRange.parseIndex text = some (n, rest)) :
    ∃ ds, text = ds ++ rest ∧ IsIndex ds n ∧ NoDigit rest := by
  unfold NumericRange.parseIndex at h
  obtain ⟨hgood, heq⟩ := ite_none_left_eq_some.mp h
  obtain ⟨rfl, rfl⟩ := Prod.mk.inj (Option.some.inj heq)
  have hvalue := digitsValue_eq (text.takeWhile isDigit) fun c hc => mem_takeWhile_imp hc
  refine ⟨text.takeWhile isDigit, takeWhile_append_dropWhile.symm, ?_, noDigit_dropWhile text⟩
  refine ⟨by omega, by omega, isDigit_takeWhile text, ?_⟩
  rw [hvalue, UInt32.toNat_ofNat_of_lt']
  show Numeral.value 10 (text.takeWhile isDigit) < 2 ^ 32
  omega

theorem parseIndex_of_isIndex (h : IsIndex ds n)
    (hrest : NoDigit rest) : NumericRange.parseIndex (ds ++ rest) = some (n, rest) := by
  have hdigits : ∀ c ∈ ds, isDigit c = true := fun c hc => (isDigit_eq c).symm.trans (h.digits c hc)
  have hpos := h.length_pos
  have hle := h.length_le
  have hlt := n.toNat_lt
  unfold NumericRange.parseIndex
  rw [Numeral.takeWhile_append_rest hdigits hrest, Numeral.dropWhile_append_rest hdigits hrest]
  dsimp only
  rw [digitsValue_eq ds hdigits, h.value, if_neg (by omega), UInt32.ofNat_toNat]

theorem noDigit_colon (rest : List UInt8) : NoDigit (58 :: rest) := by
  intro c hc; cases hc; rfl

theorem noDigit_comma (rest : List UInt8) : NoDigit (44 :: rest) := by
  intro c hc; cases hc; rfl

theorem parseDimension_eq_some
    (h : NumericRange.parseDimension text = some (dim, rest)) :
    ∃ ts, text = ts ++ rest ∧ IsDimension ts dim := by
  cases hx : NumericRange.parseIndex text with
  | none => simp [NumericRange.parseDimension, hx] at h
  | some x =>
    obtain ⟨start, rest'⟩ := x
    obtain ⟨ds, rfl, hds, -⟩ := parseIndex_eq_some hx
    by_cases hcolon : ∃ more, rest' = 58 :: more
    · obtain ⟨more, rfl⟩ := hcolon
      simp only [NumericRange.parseDimension, hx] at h
      cases hy : NumericRange.parseIndex more with
      | none => simp [hy] at h
      | some y =>
        obtain ⟨stop, rest''⟩ := y
        obtain ⟨es, rfl, hes, -⟩ := parseIndex_eq_some hy
        simp only [hy] at h
        by_cases hle : stop ≤ start
        · simp [hle] at h
        · rw [dif_neg hle] at h
          cases h; exact ⟨ds ++ 58 :: es, by simp, .range hds hes (UInt32.not_le.mp hle)⟩
    · rw [parseDimension_of_ne hx fun more he => hcolon ⟨more, he⟩] at h
      cases h; exact ⟨ds, rfl, .index hds⟩

theorem parseDimension_of_isDimension {ts : List UInt8} (h : IsDimension ts dim)
    (hrest : NoDigit rest) (hne : ∀ rest', rest ≠ 58 :: rest') :
    NumericRange.parseDimension (ts ++ rest) = some (dim, rest) := by
  cases h with
  | index h => exact parseDimension_of_ne (parseIndex_of_isIndex h hrest) hne
  | @range ds es start stop h h' hlt =>
    have hx := parseIndex_of_isIndex h (noDigit_colon (es ++ rest))
    have hy := parseIndex_of_isIndex h' hrest
    rw [append_assoc, cons_append]
    simp only [NumericRange.parseDimension, hx, hy]
    rw [dif_neg (UInt32.not_le.mpr hlt)]

theorem isRange_of_parseDimensions {text : List UInt8}
    (h : NumericRange.parseDimensions fuel text = some dims) : IsRange text dims := by
  fun_induction NumericRange.parseDimensions fuel text generalizing dims with
  | case3 fuel text dim hx =>
    obtain ⟨ts, rfl, hts⟩ := parseDimension_eq_some hx
    cases h; rw [append_nil]
    exact .one hts
  | case4 fuel text dim rest hx ih =>
    obtain ⟨ts, rfl, hts⟩ := parseDimension_eq_some hx
    obtain ⟨more, hmore, rfl⟩ := map_eq_some_iff.mp h
    exact .more hts (ih hmore)
  | _ => cases h

theorem parseDimensions_of_isRange (h : IsRange text dims)
    (hfuel : text.length < fuel) : NumericRange.parseDimensions fuel text = some dims := by
  induction h generalizing fuel with
  | @one text dim h =>
    obtain ⟨fuel, rfl⟩ := Nat.exists_eq_succ_of_ne_zero (Nat.ne_zero_of_lt hfuel)
    have hx : NumericRange.parseDimension (text ++ []) = some (dim, []) :=
      parseDimension_of_isDimension h (by simp [NoDigit]) (by simp)
    rw [append_nil] at hx
    simp [NumericRange.parseDimensions, hx]
  | @more text rest dim dims h _ ih =>
    obtain ⟨fuel, rfl⟩ := Nat.exists_eq_succ_of_ne_zero (Nat.ne_zero_of_lt hfuel)
    have hx : NumericRange.parseDimension (text ++ 44 :: rest) = some (dim, 44 :: rest) :=
      parseDimension_of_isDimension h (noDigit_comma rest) (by simp)
    rw [length_append, length_cons] at hfuel
    simp only [NumericRange.parseDimensions, hx]
    rw [ih (by omega), map_some]

theorem parse_ok_iff (ul : NumberText.ULong) :
    parse ul true text = .ok dims ↔ IsRange text dims := by
  rw [parse_eq, NumericRange.parse, if_pos rfl]
  constructor
  · intro h
    cases hdims : NumericRange.parseDimensions (text.length + 1) text with
    | none => simp [hdims] at h
    | some more =>
      simp only [hdims, Except.ok.injEq] at h
      subst h; exact isRange_of_parseDimensions hdims
  · intro h; rw [parseDimensions_of_isRange h (Nat.lt_succ_self _)]

theorem parse_error {ul : NumberText.ULong} {status : Status}
    (h : parse ul true text = .error status) : status = .nok := by
  rw [parse_eq, NumericRange.parse, if_pos rfl] at h
  cases hdims : NumericRange.parseDimensions (text.length + 1) text with
  | none => rw [hdims] at h; exact (Except.error.inj h).symm
  | some dims => rw [hdims] at h; cases h

/-- A string is accepted with the dimensions it spells, whatever `unsigned long` is, and refused if
it spells none. -/
theorem range_text_accepted_iff (ul : NumberText.ULong) (text : List UInt8) :
    (∀ dims, parse ul true text = .ok dims ↔ IsRange text dims) ∧
      (parse ul true text = .error .nok ↔ ¬ ∃ dims, IsRange text dims) := by
  refine ⟨fun dims => parse_ok_iff ul, ?_, ?_⟩
  · rintro h ⟨dims, hdims⟩; rw [(parse_ok_iff ul).mpr hdims] at h; cases h
  · intro h
    cases hparse : parse ul true text with
    | error status => rw [parse_error hparse]
    | ok dims => exact absurd ⟨dims, (parse_ok_iff ul).mp hparse⟩ h

-- "3,1:4"
example : ∃ dims, parse ⟨32, Nat.le_refl 32⟩ true [51, 44, 49, 58, 52] = .ok dims ∧
    dims.map (fun d => (d.start, d.stop)) = [(3, 3), (1, 4)] := ⟨_, rfl, rfl⟩

-- "4:1", and a comma at the end
example : parse ⟨32, Nat.le_refl 32⟩ true [52, 58, 49] = .error .nok := rfl

example : parse ⟨64, by decide⟩ true [51, 44] = .error .nok := rfl

end RangeText
end S2OPC
