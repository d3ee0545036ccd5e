import S2OPC.Lib.Segment

/-!
# S2OPC.Common.LinkedList

The list of `sopc_singly_linked_list.c` in memory. An operation answers `none` where an assertion
fails, where a pointer leads nowhere and where a loop takes more turns than there is fuel for.
`Op.effect` is what an operation does to a sequence.
-/

namespace S2OPC
namespace LinkedList

open Segment Function List

variable {V : Type}

abbrev Elt (V : Type) := UInt32 × V

structure SLinkedList (V : Type) where
  memory : Memory Nat (Elt V)
  first : Option Nat
  last : Option Nat
  length : UInt32
  maxLength : UInt32

structure Malloc (V : Type) where
  answer : Memory Nat (Elt V) → Option Nat
  fresh : ∀ memory elt, answer memory = some elt → memory elt = none

def create (sizeMax : UInt32) : SLinkedList V := ⟨fun _ => none, none, none, 0, sizeMax⟩

abbrev Result (V : Type) := Option V × SLinkedList V

def newElt (malloc : Malloc V) (list : SLinkedList V) : Option Nat :=
  if list.length < list.maxLength ∨ list.maxLength = 0 then malloc.answer list.memory else none

def prepend (malloc : Malloc V) (id : UInt32) (value : V) (list : SLinkedList V) : Option (Result V) :=
  match newElt malloc list with
  | none => some (none, list)
  | some elt => some (some value,
      { list with
        memory := update list.memory elt (some ⟨(id, value), list.first⟩)
        last := if list.last = none then some elt else list.last
        first := some elt
        length := list.length + 1 })

def append (malloc : Malloc V) (id : UInt32) (value : Option V) (list : SLinkedList V) : Option (Result V) :=
  match value, newElt malloc list with
  | some value, some elt =>
    let memory := update list.memory elt (some ⟨(id, value), none⟩)
    match list.first with
    | none => some (some value,
        { list with memory, first := some elt, last := some elt, length := list.length + 1 })
    | some _ => do
      let last ← list.last
      let cell ← memory last
      some (some value,
        { list with
          memory := update memory last (some { cell with next := some elt })
          last := some elt
          length := list.length + 1 })
  | _, _ => some (none, list)

def sortedInsert (fuel : Nat) (malloc : Malloc V) (compFn : V → V → Int) (id : UInt32) (value : V)
    (list : SLinkedList V) : Option (Result V) :=
  match newElt malloc list with
  | none => some (none, list)
  | some newElt =>
    match list.first with
    | none =>
      if list.last = none ∧ list.length = 0 then some (some value,
        { list with
          memory := update list.memory newElt (some ⟨(id, value), none⟩)
          first := some newElt
          last := some newElt
          length := list.length + 1 })
      else none
    | some first => do
      let cell ← list.memory first
      if compFn value cell.item.2 < 0 then some (some value,
        { list with
          memory := update list.memory newElt (some ⟨(id, value), some first⟩)
          first := some newElt
          length := list.length + 1 })
      else
        let elt ← advance list.memory (fun _ item => compFn value item.2 < 0) fuel first
        let cell ← list.memory elt
        let memory := update (update list.memory newElt (some ⟨(id, value), cell.next⟩)) elt
          (some { cell with next := some newElt })
        if cell.next ≠ none then some (some value, { list with memory, length := list.length + 1 })
        else if list.last = some elt then some (some value,
          { list with memory, last := some newElt, length := list.length + 1 })
        else none

def popHead (list : SLinkedList V) : Option (Result V) :=
  match list.first with
  | none => some (none, list)
  | some first => do
    let cell ← list.memory first
    some (some cell.item.2,
      { list with
        memory := update list.memory first none
        first := cell.next
        last := if cell.next = none then none else list.last
        length := list.length - 1 })

/-- `SOPC_SLinkedList_RemoveFromElt`; at the first element it does what `popHead` does. -/
def removeFromElt (fuel : Nat) (isElement : Nat → Elt V → Bool) (list : SLinkedList V) : Option (Result V) :=
  match list.first with
  | none => some (none, list)
  | some first => do
    let cell ← list.memory first
    if isElement first cell.item then popHead list
    else
      let elt ← advance list.memory isElement fuel first
      let cell ← list.memory elt
      match cell.next with
      | none => some (none, list)
      | some next =>
        let nextCell ← list.memory next
        some (some nextCell.item.2,
          { list with
            memory := update (update list.memory next none) elt
              (some { cell with next := nextCell.next })
            last := if list.last = some next then some elt else list.last
            length := list.length - 1 })

def popLast (fuel : Nat) (list : SLinkedList V) : Option (Result V) :=
  match list.last with
  | none => some (none, list)
  | some last => removeFromElt fuel (fun elt _ => elt == last) list

def removeFromId (fuel : Nat) (id : UInt32) (list : SLinkedList V) : Option (Result V) :=
  removeFromElt fuel (fun _ item => item.1 == id) list

inductive Op (V : Type) where
  | prepend (id : UInt32) (value : V)
  | append (id : UInt32) (value : Option V)
  | sortedInsert (compFn : V → V → Int) (id : UInt32) (value : V)
  | popHead
  | popLast
  | removeFromId (id : UInt32)

def Op.apply (fuel : Nat) (malloc : Malloc V) : Op V → SLinkedList V → Option (Result V)
  | .prepend id value => LinkedList.prepend malloc id value
  | .append id value => LinkedList.append malloc id value
  | .sortedInsert compFn id value => LinkedList.sortedInsert fuel malloc compFn id value
  | .popHead => LinkedList.popHead
  | .popLast => LinkedList.popLast fuel
  | .removeFromId id => LinkedList.removeFromId fuel id

/-- In front of the first element that the new one is less than. -/
def insertSorted (compFn : V → V → Int) (x : Elt V) : List (Elt V) → List (Elt V)
  | [] => [x]
  | y :: ys => if compFn x.2 y.2 < 0 then x :: y :: ys else y :: insertSorted compFn x ys

/-- The result, and the sequence after the operation; `room` says whether an element can be added. -/
def Op.effect (room : Bool) (xs : List (Elt V)) : Op V → Option V × List (Elt V)
  | .prepend id value => if room then (some value, (id, value) :: xs) else (none, xs)
  | .append id (some value) => if room then (some value, xs ++ [(id, value)]) else (none, xs)
  | .append _ none => (none, xs)
  | .sortedInsert compFn id value =>
    if room then (some value, insertSorted compFn (id, value) xs) else (none, xs)
  | .popHead => (xs.head?.map Prod.snd, xs.tail)
  | .popLast => (xs.getLast?.map Prod.snd, xs.dropLast)
  | .removeFromId id => ((xs.find? (·.1 == id)).map Prod.snd, xs.eraseP (·.1 == id))

structure Chain (list : SLinkedList V) (cells : List (Nat × Elt V)) : Prop where
  seg : Seg list.memory list.first cells none
  nodup : (cells.map Prod.fst).Nodup
  last : list.last = cells.getLast?.map Prod.fst
  length : list.length.toNat = cells.length % 2 ^ 32
  within : list.maxLength ≠ 0 → cells.length ≤ list.maxLength.toNat

def Represents (limit : UInt32) (list : SLinkedList V) (xs : List (Elt V)) : Prop :=
  list.maxLength = limit ∧ (∃ cells, Chain list cells ∧ cells.map Prod.snd = xs) ∧
    (limit ≠ 0 → list.length.toNat = xs.length ∧ xs.length ≤ limit.toNat)

def hasRoom (limit : UInt32) (malloc : Malloc V) (list : SLinkedList V) (xs : List (Elt V)) : Bool :=
  (limit = 0 ∨ xs.length < limit.toNat) ∧ malloc.answer list.memory ≠ none

/-- The calls do to the list what they do to the sequence, with loops of at most as many turns as
there are elements. -/
def Behaves (limit : UInt32) : SLinkedList V → List (Elt V) → List (Malloc V × Op V) → Prop
  | list, xs, [] => Represents limit list xs
  | list, xs, (malloc, op) :: calls => Represents limit list xs ∧
    ∃ list', op.apply xs.length malloc list =
        some ((op.effect (hasRoom limit malloc list xs) xs).1, list') ∧
      Behaves limit list' (op.effect (hasRoom limit malloc list xs) xs).2 calls

variable {list : SLinkedList V} {cells xs ys : List (Nat × Elt V)} {malloc : Malloc V}
  {a elt fuel : Nat} {x y : Elt V} {first last next : Option Nat} {memory : Memory Nat (Elt V)}

theorem Chain.length_lt_iff (h : Chain list cells) :
    (list.length < list.maxLength ∨ list.maxLength = 0) ↔
      (list.maxLength = 0 ∨ cells.length < list.maxLength.toNat) := by
  have hmax := list.maxLength.toNat_lt
  have hlen := h.length
  rw [UInt32.lt_iff_toNat_lt, or_comm]
  by_cases h0 : list.maxLength = 0
  · simp [h0]
  · have := h.within h0
    rw [hlen, Nat.mod_eq_of_lt (by omega)]

theorem Chain.hasRoom_eq (h : Chain list cells) (malloc : Malloc V) :
    hasRoom list.maxLength malloc list (cells.map Prod.snd) = (newElt malloc list).isSome := by
  simp only [hasRoom, newElt, length_map, ← h.length_lt_iff]
  split <;> cases malloc.answer list.memory <;> simp_all

theorem Chain.of_newElt (h : Chain list cells) (hnew : newElt malloc list = some elt) :
    (list.maxLength = 0 ∨ cells.length < list.maxLength.toNat) ∧ list.memory elt = none := by
  simp only [newElt, Option.ite_none_right_eq_some, h.length_lt_iff] at hnew
  exact ⟨hnew.1, malloc.fresh _ _ hnew.2⟩

theorem Chain.longer (h : Chain list cells)
    (hroom : list.maxLength = 0 ∨ cells.length < list.maxLength.toNat)
    (hseg : Seg memory first ys none) (hnodup : (ys.map Prod.fst).Nodup)
    (hlast : last = ys.getLast?.map Prod.fst) (hys : ys.length = cells.length + 1) :
    Chain ⟨memory, first, last, list.length + 1, list.maxLength⟩ ys := by
  refine ⟨hseg, hnodup, hlast, ?_, fun hmax => ?_⟩
  · have := h.length
    rw [UInt32.toNat_add, this, hys]
    simp
  · exact hys ▸ hroom.resolve_left hmax

theorem Chain.shorter (h : Chain list cells) (hseg : Seg memory first ys none)
    (hsub : ys.Sublist cells) (hlast : last = ys.getLast?.map Prod.fst)
    (hys : cells.length = ys.length + 1) :
    Chain ⟨memory, first, last, list.length - 1, list.maxLength⟩ ys := by
  refine ⟨hseg, h.nodup.sublist (hsub.map _), hlast, ?_, fun hmax => ?_⟩
  · have := h.length
    rw [UInt32.toNat_sub, this, hys]
    simp; omega
  · exact hsub.length_le.trans (h.within hmax)

theorem Chain.not_mem (h : Chain list cells) (helt : list.memory elt = none) :
    elt ∉ cells.map Prod.fst :=
  fun hmem => h.seg.allocated hmem helt

theorem Chain.insertAfter (h : Chain list (xs ++ (a, x) :: ys)) (hnew : newElt malloc list = some elt)
    (hnext : list.memory a = some ⟨x, next⟩) (hlast : last = if ys = [] then some elt else list.last) :
    Chain ⟨update (update list.memory elt (some ⟨y, next⟩)) a (some ⟨x, some elt⟩), list.first, last,
      list.length + 1, list.maxLength⟩ (xs ++ (a, x) :: (elt, y) :: ys) := by
  obtain ⟨hroom, helt⟩ := h.of_newElt hnew
  have hfresh := h.not_mem helt
  have hnodup := h.nodup
  refine h.longer hroom (h.seg.insertAfter hnodup hnext helt) ?_ ?_ (by simp; omega)
  · simp only [map_append, map_cons, nodup_append, nodup_cons, mem_append, mem_cons] at hfresh hnodup ⊢
    grind
  · rw [hlast, h.last]
    cases ys <;> simp

theorem seg_next (xs : List (Nat × Elt V)) (h : Seg memory first (xs ++ (a, x) :: ys) none) :
    memory a = some ⟨x, ys.head?.map Prod.fst⟩ := by
  obtain ⟨-, -, -, next, hmem, hys⟩ := seg_append.1 h
  cases ys with
  | nil => rw [hmem, show next = none from hys]; rfl
  | cons c ys => rw [hmem, hys.1]; rfl

def Does (list : SLinkedList V) (answer : Option (Result V)) (result : Option V)
    (cells : List (Nat × Elt V)) : Prop :=
  ∃ list', answer = some (result, list') ∧ Chain list' cells ∧ list'.maxLength = list.maxLength

theorem Chain.prepend (h : Chain list cells) (hnew : newElt malloc list = some elt) (id : UInt32)
    (value : V) : Does list (prepend malloc id value list) (some value) ((elt, id, value) :: cells) := by
  obtain ⟨hroom, helt⟩ := h.of_newElt hnew
  have hfresh := h.not_mem helt
  simp only [LinkedList.prepend, hnew]
  refine ⟨_, rfl, h.longer hroom ?_ (nodup_cons.2 ⟨hfresh, h.nodup⟩) ?_ (by simp), rfl⟩
  · exact ⟨rfl, _, update_self _ _ _, h.seg.update hfresh _⟩
  · rw [h.last]
    cases cells <;> simp [getLast?_cons]

theorem Chain.first_eq (h : Chain list cells) : list.first = cells.head?.map Prod.fst := by
  cases cells with
  | nil => exact h.seg
  | cons c cells => exact h.seg.1

theorem Chain.append (h : Chain list cells) (hnew : newElt malloc list = some elt) (id : UInt32)
    (value : V) :
    Does list (append malloc id (some value) list) (some value) (cells ++ [(elt, id, value)]) := by
  obtain ⟨hroom, helt⟩ := h.of_newElt hnew
  cases cells using List.reverseRecOn with
  | nil =>
    simp only [LinkedList.append, hnew, h.first_eq]
    exact ⟨_, rfl, h.longer hroom ⟨rfl, _, update_self _ _ _, rfl⟩ (by simp) rfl rfl, rfl⟩
  | append_singleton cells c =>
    obtain ⟨l, x⟩ := c
    have hnext := seg_next _ h.seg
    have hne : l ≠ elt := by rintro rfl; simp [helt] at hnext
    have hlast : list.last = some l := by simp [h.last]
    obtain ⟨first, hfirst⟩ : ∃ first, list.first = some first := by
      rw [h.first_eq]
      cases cells <;> simp
    simp only [LinkedList.append, hnew, hfirst, hlast, Option.bind_eq_bind, Option.bind_some,
      update_of_ne hne, hnext]
    refine ⟨_, rfl, ?_, rfl⟩
    simpa [hfirst] using h.insertAfter (y := (id, value)) hnew hnext (if_pos rfl).symm

theorem insertSorted_eq {compFn : V → V → Int} {before after : List (Elt V)}
    (hbefore : ∀ y ∈ before, ¬compFn x.2 y.2 < 0) (hafter : ∀ y ∈ after.head?, compFn x.2 y.2 < 0) :
    insertSorted compFn x (before ++ after) = before ++ x :: after := by
  induction before with
  | nil => cases after <;> simp_all [insertSorted]
  | cons y before ih =>
    rw [forall_mem_cons] at hbefore
    simp [insertSorted, hbefore.1, ih hbefore.2]

theorem Chain.sortedInsert (h : Chain list cells) (hfuel : cells.length ≤ fuel)
    (hnew : newElt malloc list = some elt) (compFn : V → V → Int) (id : UInt32) (value : V) :
    ∃ cells', cells'.map Prod.snd = insertSorted compFn (id, value) (cells.map Prod.snd) ∧
      Does list (sortedInsert fuel malloc compFn id value list) (some value) cells' := by
  obtain ⟨hroom, helt⟩ := h.of_newElt hnew
  have hfresh := h.not_mem helt
  cases cells with
  | nil =>
    have hlength : list.length = 0 := UInt32.toNat_inj.1 (by simpa using h.length)
    refine ⟨[(elt, id, value)], rfl, ?_⟩
    simp only [LinkedList.sortedInsert, hnew, h.first_eq, h.last, hlength]
    exact ⟨_, rfl, hlength ▸ h.longer hroom ⟨rfl, _, update_self _ _ _, rfl⟩ (by simp) rfl rfl, rfl⟩
  | cons c cells =>
    obtain ⟨first, x⟩ := c
    have hfirst := h.first_eq
    have hmem := seg_next [] h.seg
    simp only [head?_cons, Option.map_some] at hfirst
    by_cases hcomp : compFn value x.2 < 0
    · refine ⟨(elt, id, value) :: (first, x) :: cells, by simp [insertSorted, hcomp], ?_⟩
      simp only [LinkedList.sortedInsert, hnew, hfirst, hmem, Option.bind_eq_bind, Option.bind_some,
        if_pos hcomp]
      refine ⟨_, rfl, h.longer hroom ?_ (nodup_cons.2 ⟨hfresh, h.nodup⟩) ?_ (by simp), rfl⟩
      · exact ⟨rfl, _, update_self _ _ _, hfirst ▸ h.seg.update hfresh _⟩
      · simp [h.last, getLast?_cons]
    · obtain ⟨pre, ⟨a, y⟩, post, hcells, hadvance, hbefore, hafter⟩ := advance_spec
        (fun _ item => decide (compFn value item.2 < 0)) (hfirst ▸ h.seg) (by simpa using hcomp) hfuel
      rw [hcells] at h ⊢
      have hnext := seg_next _ h.seg
      refine ⟨pre ++ (a, y) :: (elt, id, value) :: post, ?_, ?_⟩
      · have hbefore : ∀ z ∈ (pre ++ [(a, y)]).map Prod.snd, ¬compFn value z.2 < 0 :=
          forall_mem_map.2 fun c hc => by simpa using hbefore c hc
        have hafter : ∀ z ∈ (post.map Prod.snd).head?, compFn value z.2 < 0 := by
          cases post <;> simp_all
        simpa using (insertSorted_eq (x := (id, value)) hbefore hafter).symm
      · simp only [LinkedList.sortedInsert, hnew, hfirst, hmem, Option.bind_eq_bind, Option.bind_some,
          if_neg hcomp, hadvance, hnext]
        cases post with
        | nil =>
          have hlast : list.last = some a := by simp [h.last]
          simp only [head?_nil, Option.map_none, ne_eq, not_true_eq_false, if_false, hlast, if_true]
          exact ⟨_, rfl, hfirst ▸ h.insertAfter hnew hnext (if_pos rfl).symm, rfl⟩
        | cons c post =>
          simp only [head?_cons, Option.map_some, ne_eq, reduceCtorEq, not_false_eq_true, if_true]
          exact ⟨_, rfl, hfirst ▸ h.insertAfter hnew hnext (if_neg (cons_ne_nil _ _)).symm, rfl⟩

theorem Chain.popHead (h : Chain list cells) :
    Does list (popHead list) ((cells.map Prod.snd).head?.map Prod.snd) cells.tail := by
  cases cells with
  | nil =>
    simp only [LinkedList.popHead, h.first_eq]
    exact ⟨_, rfl, h, rfl⟩
  | cons c cells =>
    obtain ⟨first, x⟩ := c
    obtain ⟨hfirst, next, hmem, hrest⟩ := h.seg
    simp only [LinkedList.popHead, hfirst, hmem, Option.bind_eq_bind, Option.bind_some]
    refine ⟨_, rfl, h.shorter (hrest.update (nodup_cons.1 h.nodup).1 _) (sublist_cons_self _ _) ?_ rfl, rfl⟩
    cases cells with
    | nil => rw [show next = none from hrest]; rfl
    | cons d cells => rw [hrest.1, h.last]; simp

theorem Chain.removeFromElt (h : Chain list cells) (hfuel : cells.length ≤ fuel)
    (isElement : Nat → Elt V → Bool) :
    Does list (removeFromElt fuel isElement list)
      ((cells.find? fun c => isElement c.1 c.2).map (·.2.2)) (cells.eraseP fun c => isElement c.1 c.2) := by
  cases cells with
  | nil =>
    simp only [LinkedList.removeFromElt, h.first_eq]
    exact ⟨_, rfl, h, rfl⟩
  | cons c cells =>
    obtain ⟨first, x⟩ := c
    have hfirst := h.first_eq
    have hmem := seg_next [] h.seg
    simp only [head?_cons, Option.map_some] at hfirst
    simp only [LinkedList.removeFromElt, hfirst, hmem, Option.bind_eq_bind, Option.bind_some]
    cases hx : isElement first x with
    | true => simpa [hx] using h.popHead
    | false =>
      obtain ⟨pre, ⟨a, y⟩, post, hcells, hadvance, hbefore, hafter⟩ :=
        advance_spec isElement (hfirst ▸ h.seg) hx hfuel
      rw [hcells] at h ⊢
      have hnext := seg_next _ h.seg
      simp only [Bool.false_eq_true, if_false, hadvance, Option.bind_some, hnext]
      cases post with
      | nil =>
        rw [find?_eq_none.2 (by simpa using hbefore), eraseP_of_forall_not (by simpa using hbefore)]
        exact ⟨_, rfl, h, rfl⟩
      | cons c post =>
        obtain ⟨b, z⟩ := c
        have hb := seg_next (pre ++ [(a, y)]) (by simpa using h.seg)
        have hz : isElement b z = true := hafter _ rfl
        have hbefore : ∀ c ∈ pre ++ [(a, y)], ¬isElement c.1 c.2 = true := by simpa using hbefore
        have hsplit : pre ++ (a, y) :: (b, z) :: post = (pre ++ [(a, y)]) ++ (b, z) :: post := by simp
        have hfind : (pre ++ (a, y) :: (b, z) :: post).find? (fun c => isElement c.1 c.2) = some (b, z) := by
          rw [hsplit, find?_append, find?_eq_none.2 hbefore, Option.none_or]; simp [hz]
        have herase : (pre ++ (a, y) :: (b, z) :: post).eraseP (fun c => isElement c.1 c.2) =
            pre ++ (a, y) :: post := by
          rw [hsplit, eraseP_append_right _ hbefore]; simp [hz]
        rw [hfind, herase]
        simp only [head?_cons, Option.map_some, hb, Option.bind_some]
        refine ⟨_, rfl, h.shorter (hfirst ▸ h.seg.removeAfter h.nodup hb) ?_ ?_ (by simp; omega), rfl⟩
        · exact ((sublist_cons_self _ _).cons_cons _).append_left _
        · cases post using List.reverseRecOn with
          | nil => simp [h.last]
          | append_singleton post d =>
            have hd : d.1 ≠ b := by
              have hnodup := h.nodup
              simp only [map_append, map_cons, nodup_append, nodup_cons] at hnodup
              grind
            simp [h.last, getLast?_append, getLast?_cons, hd]

theorem Chain.popLast (h : Chain list cells) (hfuel : cells.length ≤ fuel) :
    Does list (popLast fuel list) ((cells.map Prod.snd).getLast?.map Prod.snd) cells.dropLast := by
  cases cells using List.reverseRecOn with
  | nil =>
    simp only [LinkedList.popLast, h.last]
    exact ⟨_, rfl, h, rfl⟩
  | append_singleton cells c =>
    have hlast : list.last = some c.1 := by simp [h.last]
    have hne : ∀ d ∈ cells, ¬(d.1 == c.1) = true := by
      have hnodup := h.nodup
      simp only [map_append, nodup_append] at hnodup
      intro d hd heq
      exact hnodup.2.2 d.1 (mem_map_of_mem hd) c.1 (by simp) (by simpa using heq)
    have := h.removeFromElt hfuel fun elt _ => elt == c.1
    rw [find?_append, find?_eq_none.2 hne, eraseP_append_right _ hne] at this
    simpa [LinkedList.popLast, hlast] using this

theorem Chain.apply (h : Chain list cells) (hfuel : cells.length ≤ fuel) (malloc : Malloc V)
    (op : Op V) {effect : Option V × List (Elt V)}
    (heffect : op.effect (newElt malloc list).isSome (cells.map Prod.snd) = effect) :
    ∃ cells', cells'.map Prod.snd = effect.2 ∧ Does list (op.apply fuel malloc list) effect.1 cells' := by
  subst heffect
  cases op with
  | prepend id value =>
    cases hnew : newElt malloc list with
    | none => exact ⟨cells, rfl, list, by simp [Op.apply, LinkedList.prepend, hnew, Op.effect], h, rfl⟩
    | some elt => exact ⟨_, rfl, h.prepend hnew id value⟩
  | append id value =>
    cases value with
    | none => exact ⟨cells, rfl, list, rfl, h, rfl⟩
    | some value =>
      cases hnew : newElt malloc list with
      | none => exact ⟨cells, rfl, list, by simp [Op.apply, LinkedList.append, hnew, Op.effect], h, rfl⟩
      | some elt => exact ⟨_, by simp [Op.effect], h.append hnew id value⟩
  | sortedInsert compFn id value =>
    cases hnew : newElt malloc list with
    | none => exact ⟨cells, rfl, list, by simp [Op.apply, LinkedList.sortedInsert, hnew, Op.effect], h, rfl⟩
    | some elt => exact h.sortedInsert hfuel hnew compFn id value
  | popHead => exact ⟨cells.tail, map_tail, h.popHead⟩
  | popLast => exact ⟨cells.dropLast, map_dropLast, h.popLast hfuel⟩
  | removeFromId id =>
    refine ⟨cells.eraseP fun c => c.2.1 == id, by simp [Op.effect, eraseP_map, comp_def], ?_⟩
    simpa [Op.apply, LinkedList.removeFromId, Op.effect, find?_map, comp_def] using
      h.removeFromElt hfuel fun _ item => item.1 == id

theorem Chain.represents (h : Chain list cells) :
    Represents list.maxLength list (cells.map Prod.snd) := by
  refine ⟨rfl, ⟨cells, h, rfl⟩, fun hmax => ?_⟩
  have hlength := h.length
  have hwithin := h.within hmax
  have := list.maxLength.toNat_lt
  rw [length_map]
  omega

theorem Chain.behaves (calls : List (Malloc V × Op V)) (h : Chain list cells) :
    Behaves list.maxLength list (cells.map Prod.snd) calls := by
  induction calls generalizing list cells with
  | nil => exact h.represents
  | cons call calls ih =>
    obtain ⟨malloc, op⟩ := call
    refine ⟨h.represents, ?_⟩
    rw [h.hasRoom_eq]
    obtain ⟨cells', hcells, list', happly, h', hmax⟩ := h.apply (length_map _).ge malloc op rfl
    refine ⟨list', happly, ?_⟩
    rw [← hcells, ← hmax]
    exact ih h'

structure Comparison (V : Type) where
  compFn : V → V → Int
  symm : ∀ u v, compFn u v < 0 ↔ 0 < compFn v u
  trans : ∀ u v w, compFn u v ≤ 0 → compFn v w ≤ 0 → compFn u w ≤ 0

variable (comp : Comparison V)

def Comparison.Sorted (xs : List (Elt V)) : Prop := xs.Pairwise fun x y => comp.compFn x.2 y.2 ≤ 0

theorem insertSorted_split (x : Elt V) {xs : List (Elt V)} (h : comp.Sorted xs) :
    ∃ before after, xs = before ++ after ∧ insertSorted comp.compFn x xs = before ++ x :: after ∧
      (∀ y ∈ before, comp.compFn y.2 x.2 ≤ 0) ∧ ∀ y ∈ after, comp.compFn x.2 y.2 < 0 := by
  induction xs with
  | nil => exact ⟨[], [], rfl, rfl, by simp, by simp⟩
  | cons y ys ih =>
    obtain ⟨hy, hys⟩ := pairwise_cons.1 h
    have hsymm := comp.symm x.2 y.2
    by_cases hlt : comp.compFn x.2 y.2 < 0
    · refine ⟨[], y :: ys, rfl, if_pos hlt, by simp, forall_mem_cons.2 ⟨hlt, fun z hz => ?_⟩⟩
      -- otherwise `z` is not less than `x`, nor is `y`
      by_contra hxz
      have := comp.trans _ _ _ (hy z hz) (by have := comp.symm x.2 z.2; omega : comp.compFn z.2 x.2 ≤ 0)
      omega
    · obtain ⟨before, after, rfl, hinsert, hbefore, hafter⟩ := ih hys
      exact ⟨y :: before, after, rfl, by rw [insertSorted, if_neg hlt, hinsert]; rfl,
        forall_mem_cons.2 ⟨by omega, hbefore⟩, hafter⟩

theorem sorted_insertSorted (x : Elt V) {xs : List (Elt V)} (h : comp.Sorted xs) :
    comp.Sorted (insertSorted comp.compFn x xs) := by
  obtain ⟨before, after, rfl, hinsert, hbefore, hafter⟩ := insertSorted_split comp x h
  obtain ⟨hb, ha, hba⟩ := pairwise_append.1 h
  rw [hinsert]
  refine pairwise_append.2 ⟨hb, pairwise_cons.2 ⟨fun y hy => (hafter y hy).le, ha⟩, fun y hy z hz => ?_⟩
  rcases mem_cons.1 hz with rfl | hz
  · exact hbefore y hy
  · exact hba y hy z hz

/-- Every sequence of calls on a new list does what it does to the sequence. A sorted insertion keeps
a sorted sequence sorted, and equal elements in the order of their insertions. -/
theorem list_behaves (limit : UInt32) (calls : List (Malloc V × Op V)) :
    Behaves limit (create limit) [] calls ∧
      ∀ (comp : Comparison V) (x : Elt V) (xs : List (Elt V)), comp.Sorted xs →
        comp.Sorted (insertSorted comp.compFn x xs) ∧
          ∃ before after, xs = before ++ after ∧
            insertSorted comp.compFn x xs = before ++ x :: after ∧
            (∀ y ∈ before, comp.compFn y.2 x.2 ≤ 0) ∧ ∀ y ∈ after, comp.compFn x.2 y.2 < 0 := by
  have hcreate : Chain (create limit : SLinkedList V) [] := ⟨rfl, nodup_nil, rfl, rfl, fun _ => Nat.zero_le _⟩
  exact ⟨hcreate.behaves calls, fun comp x xs h =>
    ⟨sorted_insertSorted comp x h, insertSorted_split comp x h⟩⟩

end LinkedList
end S2OPC
