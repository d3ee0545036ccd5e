import S2OPC.Common.DictRun
import S2OPC.Common.NodeIdCompare

/-!
# S2OPC.Common.NodeIdDict

The dictionary of `SOPC_NodeId_Dict_Create`, whose keys are pointers to NodeIds (0 is the null one). A
dictionary does what the content of NodeIds asks for if its keys have no null character in a string,
and no null pointer for a GUID.
-/

namespace S2OPC
namespace RawNodeId

open AssocMap

variable (le : Bool) (memory : Nat → RawNodeId)

def nodeidEqual (a b : Nat) : Option Bool :=
  match nodeIdCompare le memory a b with
  | .ok cmp => some (cmp == .eq)
  | .error _ => none

def nodeIdFuncs : DictFuncs Nat where
  eqv a b := (nodeidEqual le memory a b).getD false
  hashFunc a := nodeIdHash le (memory a)

def contentFuncs : DictKeyFuncs Nat where
  eqv a b := sameContent (memory a) (memory b)
  refl a := sameContent_iff.mpr ⟨rfl, rfl⟩
  symm a b h := by
    obtain ⟨hns, hc⟩ := sameContent_iff.mp h
    exact sameContent_iff.mpr ⟨hns.symm, hc.symm⟩
  trans a b c h₁ h₂ := by
    obtain ⟨hns₁, hc₁⟩ := sameContent_iff.mp h₁
    obtain ⟨hns₂, hc₂⟩ := sameContent_iff.mp h₂
    exact sameContent_iff.mpr ⟨hns₁.trans hns₂, hc₁.trans hc₂⟩
  hashFunc a := nodeIdHash le (memory a)
  hash_eq _ _ h := nodeIdHash_eq h

structure Plain (nid : RawNodeId) : Prop where
  string : ∀ s, nid.data = .string s → 0 ∉ s.toList
  guid : nid.data ≠ .guid none

section

variable {V : Type} [Inhabited V]

def insertAll (f : DictFuncs Nat) :
    Dict Nat V × List (Nat × V) → List (Bool × Nat × V) → Option (Dict Nat V × List (Nat × V))
  | s, [] => some s
  | s, (alloc, key, value) :: items =>
    (Dict.insert f alloc s.1 key value).bind fun r =>
      insertAll f (r.2, if r.1 then (key, value) :: s.2 else s.2) items

end

variable {le memory}

variable {a b : Nat}

theorem Plain.comparable (h : Plain (memory a)) : Comparable memory a b := by
  constructor
  · intro s t _ ha hb hlen hc
    have hs : s.cString = s.toList := by
      refine List.takeWhile_eq_self_iff.mpr fun x hx => ?_
      rw [bne_iff_ne]
      rintro rfl; exact h.string s ha hx
    have ht : t.cString = t.toList := by
      refine (List.takeWhile_prefix _).eq_of_length ?_
      rw [← hlen, ← hs, hc]
      rfl
    rw [← hs, hc, ht]
  · rintro _ _ ⟨ha, -⟩; exact h.guid ha

theorem nodeIdFuncs_eqv :
    (nodeIdFuncs le memory).eqv a b = true ↔ nodeIdCompare le memory a b = .ok .eq := by
  unfold nodeIdFuncs nodeidEqual
  dsimp only
  cases nodeIdCompare le memory a b with
  | ok cmp => simp
  | error e => simp

theorem Plain.eqv_eq (h : Plain (memory a)) (b : Nat) :
    (nodeIdFuncs le memory).eqv a b = (contentFuncs le memory).eqv a b := by
  rw [Bool.eq_iff_iff, nodeIdFuncs_eqv, h.comparable.equal_iff]; rfl

theorem Plain.nodeidEqual_isSome (ha : Plain (memory a)) (hb : Plain (memory b)) :
    (nodeidEqual le memory a b).isSome = true := by
  have hok : ∃ cmp, nodeIdCompare le memory a b = .ok cmp := by
    unfold nodeIdCompare
    split_ifs with hab hsame
    · exact ⟨_, rfl⟩
    · have htype := hsame.2
      unfold identifierType at htype
      cases hda : (memory a).data with
      | guid g =>
        cases g with
        | none => exact absurd hda ha.guid
        | some g =>
          cases hdb : (memory b).data with
          | guid g' =>
            cases g' with
            | none => exact absurd hdb hb.guid
            | some g' => exact ⟨_, rfl⟩
          | _ => simp [hda, hdb] at htype
      | _ =>
        cases hdb : (memory b).data with
        | _ => first | exact ⟨_, rfl⟩ | simp [hda, hdb] at htype
    · exact ⟨_, rfl⟩
    · exact ⟨_, rfl⟩
  obtain ⟨cmp, hcmp⟩ := hok
  rw [nodeidEqual, hcmp]
  rfl

section

variable {V : Type} [Inhabited V] {d : Dict Nat V}

theorem tombstoneFirst_eq_false {f : DictKeyFuncs Nat} (h : d.tombstoneKey = d.emptyKey) (key : Nat) :
    Dict.tombstoneFirst f d key = false := by
  unfold Dict.tombstoneFirst
  rw [beq_eq_false_iff_ne]
  intro htrue; obtain ⟨i, -, hi⟩ := List.exists_of_findSome?_eq_some htrue
  dsimp only at hi
  rw [h] at hi
  split_ifs at hi <;> cases hi

structure Holds (le : Bool) (memory : Nat → RawNodeId) (s : Dict Nat V × List (Nat × V)) : Prop where
  wf : Dict.Wf (contentFuncs le memory) s.1
  emptyKey_eq : s.1.emptyKey = 0
  tombstoneKey_eq : s.1.tombstoneKey = 0
  lookup_eq : ∀ key, lookup (contentFuncs le memory).toKeyEq s.1.live key =
    lookup (contentFuncs le memory).toKeyEq s.2 key

theorem holds_create : Holds le memory ((Dict.create 0 : Dict Nat V), []) := by
  have hsize : Dict.initialSize = 2 ^ 4 := rfl
  have hcore := (Dict.core_emptied (f := contentFuncs le memory) (d := (Dict.create 0 : Dict Nat V))
    (le_refl 4) (by omega) hsize).1
  refine ⟨⟨hcore, by simp [Dict.create, Dict.size]⟩, rfl, rfl, fun key => ?_⟩
  simp [Dict.create, Dict.live, Dict.items, Dict.isFree]

variable {s : Dict Nat V × List (Nat × V)} {key : Nat}

theorem Holds.insert (h : Holds le memory s) (alloc : Bool)
    (hkey : key ≠ 0) (hplain : Plain (memory key)) (value : V) :
    ∃ r, Dict.insert (nodeIdFuncs le memory) alloc s.1 key value = some r ∧
      Holds le memory (r.2, if r.1 then (key, value) :: s.2 else s.2) := by
  have hcongr : Dict.insert (nodeIdFuncs le memory) alloc s.1 key value =
      Dict.insert (contentFuncs le memory) alloc s.1 key value :=
    Dict.insert_congr
      (show (nodeIdFuncs le memory).hashFunc = (contentFuncs le memory).toDictFuncs.hashFunc from rfl)
      hplain.eqv_eq alloc value
  have hsafe : Dict.insertSafe (contentFuncs le memory) s.1 key = true := by
    have htomb := tombstoneFirst_eq_false (f := contentFuncs le memory)
      (h.tombstoneKey_eq.trans h.emptyKey_eq.symm) key
    simp [Dict.insertSafe, htomb]
  rw [hcongr]
  obtain hfail | ⟨d', hd', hwf, hempty, htomb, hlive⟩ := h.wf.insert alloc
    (h.emptyKey_eq ▸ hkey) (h.tombstoneKey_eq ▸ hkey) hsafe value
  · exact ⟨_, hfail, h⟩
  · refine ⟨_, hd', hwf, hempty.trans h.emptyKey_eq, htomb.trans h.tombstoneKey_eq, fun k => ?_⟩
    rw [hwf.distinct.lookup_perm hlive, lookup_insert, h.lookup_eq]
    simp only [if_true, lookup, List.find?_cons]
    split <;> simp_all

theorem Holds.insertAll {items : List (Bool × Nat × V)}
    (h : Holds le memory s) (hitems : ∀ item ∈ items, item.2.1 ≠ 0 ∧ Plain (memory item.2.1)) :
    ∃ s', RawNodeId.insertAll (nodeIdFuncs le memory) s items = some s' ∧ Holds le memory s' := by
  induction items generalizing s with
  | nil => exact ⟨s, rfl, h⟩
  | cons item items ih =>
    obtain ⟨alloc, key, value⟩ := item
    obtain ⟨hkey, hplain⟩ := hitems _ List.mem_cons_self
    obtain ⟨r, hr, h'⟩ := h.insert alloc hkey hplain value
    obtain ⟨s', hs', hfinal⟩ := ih h' fun item hitem => hitems item (List.mem_cons_of_mem _ hitem)
    exact ⟨s', by rw [RawNodeId.insertAll, hr, Option.bind_some, hs'], hfinal⟩

theorem Holds.get_eq (h : Holds le memory s)
    (hkey : key ≠ 0) (hplain : Plain (memory key)) :
    Dict.get (nodeIdFuncs le memory) s.1 key =
      some ((s.2.find? fun p => (nodeIdFuncs le memory).eqv key p.1).map Prod.snd) := by
  have hcongr : Dict.get (nodeIdFuncs le memory) s.1 key = Dict.get (contentFuncs le memory) s.1 key :=
    Dict.get_congr rfl fun idx _ => hplain.eqv_eq _
  rw [hcongr, h.wf.get_eq_lookup (h.emptyKey_eq ▸ hkey) (h.tombstoneKey_eq ▸ hkey), h.lookup_eq]
  simp [lookup, hplain.eqv_eq]

end

/-- Two NodeIds are compared and hashed as their contents ask for exactly if they can be compared. In a
dictionary whose keys all are plain no comparison fails, and the value last inserted under an equal key
is found. -/
theorem nodeId_equality_fits_hash (le : Bool) (memory : Nat → RawNodeId) :
    (∀ a b, ComparedRight le memory a b ↔ Comparable memory a b) ∧
      (∀ a b, Plain (memory a) → Plain (memory b) → (nodeidEqual le memory a b).isSome = true) ∧
      ∀ (V : Type) [Inhabited V] (items : List (Bool × Nat × V)),
        (∀ item ∈ items, item.2.1 ≠ 0 ∧ Plain (memory item.2.1)) →
        ∃ d inserted, insertAll (nodeIdFuncs le memory) (Dict.create 0, []) items =
            some (d, inserted) ∧
          ∀ key, key ≠ 0 → Plain (memory key) → Dict.get (nodeIdFuncs le memory) d key =
            some ((inserted.find? fun p => (nodeIdFuncs le memory).eqv key p.1).map Prod.snd) := by
  refine ⟨fun a b => comparedRight_iff, fun a b => Plain.nodeidEqual_isSome,
    fun V _ items hitems => ?_⟩
  obtain ⟨⟨d, inserted⟩, hs, hholds⟩ := (holds_create (V := V)).insertAll hitems
  exact ⟨d, inserted, hs, fun key hkey hplain => hholds.get_eq hkey hplain⟩

def cutStrings (address : Nat) : RawNodeId :=
  ⟨1, .string ⟨some [97, 0, if address = 1 then 98 else 99], by simp⟩⟩

/-- They are equal, have different hashes, and one is not found under the other. -/
theorem cut_strings_equal_not_found :
    nodeIdCompare true cutStrings 1 2 = .ok .eq ∧
      nodeIdHash true (cutStrings 1) ≠ nodeIdHash true (cutStrings 2) ∧
      ((insertAll (nodeIdFuncs true cutStrings) (Dict.create 0, []) [(true, 1, 7)]).bind fun s =>
        Dict.get (nodeIdFuncs true cutStrings) s.1 2) = some (none : Option Nat) := by
  refine ⟨?_, ?_, ?_⟩
  · rfl
  · decide
  · rfl

end RawNodeId
end S2OPC
