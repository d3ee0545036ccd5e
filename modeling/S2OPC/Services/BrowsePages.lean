import S2OPC.Lib.Paging
import S2OPC.Services.BrowseTreatment

/-!
# S2OPC.Services.BrowsePages

The references of a node that match a filter (`View.matching`), and what a browse of the node from an
index on comes to: a page of them, and a continuation point if the scan stopped before the end
(`Browsed`, `Computed`).
-/

namespace S2OPC
namespace Browse

open AddressSpace List Function Option View Points Paging

variable {L : Type} (view : View L)

structure Filter.Matches (filter : Filter) (ref : ReferenceNode) : Prop where
  direction : filter.direction = .both ∨ filter.direction = .forward ∧ ref.isInverse = false ∨
    filter.direction = .inverse ∧ ref.isInverse = true
  referenceType : ∀ refType, filter.referenceType = some refType →
    NodeId.equal refType ref.referenceTypeId = true ∨
      filter.includeSubtypes = true ∧ view.isTransitiveSubtype ref.referenceTypeId refType = true
  nodeClass : filter.nodeClassMask = 0 ∨ ∀ node, view.targetNode ref.targetId = some node →
    filter.nodeClassMask &&& nodeClassBit node.nodeClass ≠ 0

def View.describe (filter : Filter) (ref : ReferenceNode) : ReferenceDescription L :=
  applyResultMaskFilter filter.resultMask ref (view.optionalFields ref.targetId)

def View.passes (filter : Filter) (ref : ReferenceNode) : Bool :=
  filter.direction.isForwardCompatible (!ref.isInverse) &&
    (view.isRefTypesCompatible filter.referenceType filter.includeSubtypes ref.referenceTypeId &&
      isNodeClassInNodeClassMask filter.nodeClassMask (view.optionalFields ref.targetId).nodeClass)

variable {view} {filter : Filter} {ref : ReferenceNode}

theorem passes_iff : view.passes filter ref = true ↔ filter.Matches view ref := by
  have hmatches : _ ∧ _ ∧ _ ↔ filter.Matches view ref :=
    ⟨fun ⟨hdir, htype, hclass⟩ => ⟨hdir, htype, hclass⟩, fun h => ⟨h.1, h.2, h.3⟩⟩
  rw [passes, Bool.and_eq_true, Bool.and_eq_true, ← hmatches]
  refine and_congr ?_ (and_congr ?_ ?_)
  · cases filter.direction <;> cases ref.isInverse <;> decide
  · cases filter.referenceType with
    | none => simp [isRefTypesCompatible]
    | some refType =>
      simp only [isRefTypesCompatible, some.injEq, forall_eq']
      by_cases hequal : NodeId.equal refType ref.referenceTypeId = true
      · simp [hequal]
      · cases filter.includeSubtypes <;> simp [hequal]
  · unfold optionalFields
    cases view.targetNode ref.targetId <;> simp [isNodeClassInNodeClassMask]

instance : Decidable (filter.Matches view ref) := decidable_of_iff _ passes_iff

variable (view filter) in
def View.matching (node : Node) : List (ReferenceDescription L) :=
  (node.references.filter fun ref => decide (filter.Matches view ref)).map (view.describe filter)

variable (view filter) in
def View.found (ref : ReferenceNode) : Option (ReferenceDescription L) :=
  if view.passes filter ref then some (view.describe filter ref) else none

theorem matching_eq (node : Node) :
    view.matching filter node = node.references.filterMap (view.found filter) := by
  unfold matching
  induction node.references with
  | nil => rfl
  | cons ref refs ih =>
    rw [filter_cons, filterMap_cons, found]
    by_cases hmatch : filter.Matches view ref
    · simp [hmatch, passes_iff.mpr hmatch, ih]
    · simp [hmatch, mt passes_iff.mp hmatch, ih]

theorem fillBrowseResultRef_eq (max filled : Nat) : view.fillBrowseResultRef filter max filled ref =
    ((view.found filter ref).isNone || decide (filled + 1 < max), view.found filter ref) := by
  unfold fillBrowseResultRef found passes describe
  grind

variable (view filter) in
theorem fillLoop_eq_page (refs : List ReferenceNode) (room nextIndex : Nat)
    (results : List (ReferenceDescription L)) :
    view.fillLoop filter (results.length + room) refs (decide (0 < room)) nextIndex results =
      (!(page (view.found filter) room refs).2.isEmpty,
        decide ((page (view.found filter) room refs).1.length < room),
        nextIndex + (refs.length - (page (view.found filter) room refs).2.length),
        results ++ (page (view.found filter) room refs).1) := by
  induction refs generalizing room nextIndex results with
  | nil => simp [fillLoop]
  | cons ref refs ih =>
    cases room with
    | zero => simp [fillLoop]
    | succ room =>
      simp only [fillLoop, Nat.succ_pos, decide_true, if_true]
      cases hfound : view.found filter ref with
      | none =>
        have hle := (page_rest_suffix (view.found filter) refs (room + 1)).length_le
        have h := ih (room + 1) (nextIndex + 1) results
        simp only [Nat.succ_pos, decide_true] at h
        rw [fillBrowseResultRef_eq, hfound]
        simp only [isNone_none, Bool.true_or, toList_none, append_nil, h, page, hfound, length_cons,
          Prod.mk.injEq, true_and, and_true]
        omega
      | some desc =>
        have hle := (page_rest_suffix (view.found filter) refs room).length_le
        have h := ih room (nextIndex + 1) (results ++ [desc])
        have hmax : results.length + (room + 1) = (results ++ [desc]).length + room := by
          simp; omega
        have hroom : decide (results.length + 1 < results.length + (room + 1)) =
            decide (0 < room) := by
          rw [Bool.eq_iff_iff, decide_eq_true_iff, decide_eq_true_iff]
          omega
        rw [fillBrowseResultRef_eq, hfound, hroom, hmax]
        simp only [isNone_some, Bool.false_or, toList_some, h, page, hfound, length_cons,
          append_assoc, singleton_append, Prod.mk.injEq, true_and, and_true,
          Nat.succ_lt_succ_iff]
        omega

variable (view filter) in
theorem fillBrowseResult_eq_page (startIndex max : Nat) (node : Node) :
    ∃ nextIndex,
      view.fillBrowseResult filter startIndex max node =
        (!(page (view.found filter) max (node.references.drop (startIndex - 1))).2.isEmpty,
          nextIndex,
          (page (view.found filter) max (node.references.drop (startIndex - 1))).1) ∧
      (1 ≤ startIndex → 1 ≤ nextIndex ∧ node.references.drop (nextIndex - 1) =
        (page (view.found filter) max (node.references.drop (startIndex - 1))).2) := by
  have hloop := fillLoop_eq_page view filter (node.references.drop (startIndex - 1)) max
    startIndex []
  simp only [length_nil, Nat.zero_add, nil_append] at hloop
  unfold fillBrowseResult
  rw [hloop]
  have hsuffix := page_rest_suffix (view.found filter)
    (node.references.drop (startIndex - 1)) max
  have hfull := length_page_of_rest (view.found filter)
    (node.references.drop (startIndex - 1)) max
  generalize page (view.found filter) max (node.references.drop (startIndex - 1)) = r
    at hsuffix hfull
  obtain ⟨results, rest⟩ := r
  refine ⟨_, Prod.ext ?_ rfl, ?_⟩
  · cases rest with
    | nil => rfl
    | cons ref rest => simp [hfull (cons_ne_nil ref rest)]
  · intro hstart; refine ⟨by omega, ?_⟩
    have hrest := suffix_iff_eq_drop.mp hsuffix
    rw [drop_drop] at hrest
    refine Eq.trans ?_ hrest.symm
    congr 1
    omega

theorem minNbResultRefs_le (limits : Limits) (maxTargetRef nbTarget : Nat) :
    minNbResultRefs limits maxTargetRef nbTarget ≤ limits.targets ∧
      (0 < maxTargetRef → minNbResultRefs limits maxTargetRef nbTarget ≤ maxTargetRef) := by
  unfold minNbResultRefs
  dsimp only
  split <;> split <;> omega

theorem minNbResultRefs_pos (limits : Limits) (maxTargetRef : Nat) {nbTarget : Nat}
    (h : 0 < nbTarget) : 0 < minNbResultRefs limits maxTargetRef nbTarget := by
  have hpos := limits.targets_pos
  unfold minNbResultRefs
  dsimp only
  split <;> split <;> omega

variable (view) (limits : Limits)

def View.pageFrom (ctx : Context) (node : Node) :
    List (ReferenceDescription L) × List ReferenceNode :=
  page (view.found ctx.filter)
    (minNbResultRefs limits ctx.maxReferencesPerNode node.references.length)
    (node.references.drop (ctx.startIndex - 1))

def Free (p : Points) (ctx : Context) : Prop :=
  p.isValidSession ctx.session = true ∧
    (ctx.releasePrevContinuationPoint = true ∨ p.point ctx.session = none)

/-- What comes out of a browse of a node from an index on: the last page, a page with more to come, or
a page whose rest is out of reach. -/
inductive Browsed (p : Points) (ctx : Context) (node : Node) : Points → BrowseResult L → Prop where
  | last (hrest : (view.pageFrom limits ctx node).2 = []) :
      Browsed p ctx node p ⟨.ok, none, (view.pageFrom limits ctx node).1⟩
  | more (nextIndex : Nat)
      (hnext : 1 ≤ ctx.startIndex → 1 ≤ nextIndex ∧
        node.references.drop (nextIndex - 1) = (view.pageFrom limits ctx node).2)
      (hrest : (view.pageFrom limits ctx node).2 ≠ []) (hfree : Free p ctx) :
      Browsed p ctx node
        ({ p with seed := freshContinuationPointId p.seed }.setPoint ctx.session (some
          ⟨freshContinuationPointId p.seed, nextIndex, ctx.maxReferencesPerNode, ctx.nodeId,
            ctx.filter⟩))
        ⟨.ok, some (freshContinuationPointId p.seed), (view.pageFrom limits ctx node).1⟩
  | full (hrest : (view.pageFrom limits ctx node).2 ≠ []) (hbusy : ¬Free p ctx) :
      Browsed p ctx node p ⟨.badNoContinuationPoints, none, (view.pageFrom limits ctx node).1⟩

variable {view limits} {p p' : Points} {ctx : Context} {node : Node}

variable (view limits) in
theorem pageFrom_append (ctx : Context) (node : Node) :
    (view.pageFrom limits ctx node).1 ++
        (view.pageFrom limits ctx node).2.filterMap (view.found ctx.filter) =
      (node.references.drop (ctx.startIndex - 1)).filterMap (view.found ctx.filter) :=
  page_append ..

variable {cp : ContinuationPoint} {session : Nat}

theorem getContinuationPoint_eq_some_iff {id : UInt64} :
    p.getContinuationPoint session id = some cp ↔
      p.isValidSession session = true ∧ p.point session = some cp ∧
        cp.continuationPointId = id := by
  unfold getContinuationPoint
  cases p.isValidSession session <;> simp [filter_eq_some_iff]

theorem releaseContinuationPoint_of_get {id : UInt64}
    (h : p.getContinuationPoint session id = some cp) :
    p.releaseContinuationPoint session id = (p.setPoint session none, true) := by
  rw [releaseContinuationPoint, h]

theorem setPoint_self (p : Points) (session : Nat) (cp : Option ContinuationPoint) :
    (p.setPoint session cp).point session = cp := update_self ..

theorem setPoint_other (p : Points) {s : Nat} (h : s ≠ session) (cp : Option ContinuationPoint) :
    (p.setPoint session cp).point s = p.point s :=
  update_of_ne h ..

theorem createContinuationPoint_of_free (h : Free p ctx) (nextIndex : Nat) :
    (p.releasePrevious ctx.session ctx.releasePrevContinuationPoint).createContinuationPoint
        ctx.session nextIndex ctx.maxReferencesPerNode ctx.nodeId ctx.filter =
      ({ p with seed := freshContinuationPointId p.seed }.setPoint ctx.session (some
          ⟨freshContinuationPointId p.seed, nextIndex, ctx.maxReferencesPerNode, ctx.nodeId,
            ctx.filter⟩), some (freshContinuationPointId p.seed)) := by
  obtain ⟨hvalid, hauto⟩ := h
  cases hpoint : p.point ctx.session with
  | none =>
    have hkept : p.releasePrevious ctx.session ctx.releasePrevContinuationPoint = p := by
      simp [releasePrevious, hasContinuationPoint, hpoint]
    simp [hkept, createContinuationPoint, hvalid, hpoint]
  | some cp =>
    rw [hpoint] at hauto
    obtain hauto | hauto := hauto
    · have hget : p.getContinuationPoint ctx.session cp.continuationPointId = some cp :=
        getContinuationPoint_eq_some_iff.mpr ⟨hvalid, hpoint, rfl⟩
      have hreleased : p.releasePrevious ctx.session true = p.setPoint ctx.session none := by
        simp [releasePrevious, hasContinuationPoint, hvalid, hpoint,
          releaseContinuationPoint_of_get hget]
      have hself := setPoint_self p ctx.session none
      have hsessions : (p.setPoint ctx.session none).isValidSession ctx.session = true := hvalid
      simp only [hauto, hreleased, createContinuationPoint, hself, hsessions, isNone_none,
        Bool.and_self, if_true]
      simp [setPoint]
    · cases hauto

theorem createContinuationPoint_of_not_free (h : ¬Free p ctx) (nextIndex : Nat) :
    (p.releasePrevious ctx.session ctx.releasePrevContinuationPoint).createContinuationPoint
        ctx.session nextIndex ctx.maxReferencesPerNode ctx.nodeId ctx.filter = (p, none) := by
  unfold releasePrevious hasContinuationPoint createContinuationPoint
  cases hvalid : p.isValidSession ctx.session with
  | false => simp [hvalid]
  | true =>
    cases hauto : ctx.releasePrevContinuationPoint with
    | true => exact absurd ⟨hvalid, .inl hauto⟩ h
    | false =>
      cases hpoint : p.point ctx.session with
      | none => exact absurd ⟨hvalid, .inr hpoint⟩ h
      | some cp => simp [hpoint]

theorem fillAndContinue_browsed (p : Points) (ctx : Context) (node : Node) :
    Browsed view limits p ctx node (view.fillAndContinue limits p ctx node).1
      (view.fillAndContinue limits p ctx node).2 := by
  obtain ⟨nextIndex, hfill, hnext⟩ := fillBrowseResult_eq_page view ctx.filter ctx.startIndex
    (minNbResultRefs limits ctx.maxReferencesPerNode node.references.length) node
  change _ = (!(view.pageFrom limits ctx node).2.isEmpty, nextIndex,
    (view.pageFrom limits ctx node).1) at hfill
  simp only [fillAndContinue, hfill]
  by_cases hrest : (view.pageFrom limits ctx node).2 = []
  · rw [if_neg (by simp [hrest])]; exact .last hrest
  rw [if_pos (by simp [hrest])]
  by_cases hfree : Free p ctx
  · rw [createContinuationPoint_of_free hfree]; exact .more nextIndex hnext hrest hfree
  · rw [createContinuationPoint_of_not_free hfree]; exact .full hrest hfree

variable (view) in
def Filter.ValidType (filter : Filter) : Prop :=
  ∀ refType, filter.referenceType = some refType → view.isValidReferenceTypeId refType = true

variable (view limits) in
inductive Computed (p : Points) (ctx : Context) : Points → BrowseResult L → Prop where
  | browsed {p' : Points} {result : BrowseResult L} (node : Node)
      (hfind : view.findNode ctx.nodeId = some node) (htype : ctx.filter.ValidType view)
      (h : Browsed view limits p ctx node p' result) : Computed p ctx p' result
  | error (status : Status) (hok : status ≠ .ok) (hpoint : status ≠ .badContinuationPointInvalid)
      (h : view.findNode ctx.nodeId = none ∨ ¬ctx.filter.ValidType view) :
      Computed p ctx p (.error status)

variable (view limits) in
theorem computeBrowseResult_computed (p : Points) (ctx : Context) :
    Computed view limits p ctx (view.computeBrowseResult limits p ctx).1
      (view.computeBrowseResult limits p ctx).2 := by
  have hfound : ctx.filter.ValidType view → ∀ node, view.findNode ctx.nodeId = some node →
      Computed view limits p ctx (view.fillAndContinue limits p ctx node).1
        (view.fillAndContinue limits p ctx node).2 :=
    fun htype node hfind => .browsed node hfind htype (fillAndContinue_browsed p ctx node)
  unfold computeBrowseResult
  cases hfilter : ctx.filter.referenceType with
  | none =>
    have htype : ctx.filter.ValidType view := by intro refType h; rw [hfilter] at h; cases h
    cases hfind : view.findNode ctx.nodeId with
    | none => exact .error _ (by decide) (by decide) (.inl hfind)
    | some node => exact hfound htype node hfind
  | some refType =>
    dsimp only
    cases hvalid : view.isValidReferenceTypeId refType with
    | false =>
      refine .error _ (by decide) (by decide) (.inr fun htype => ?_)
      rw [htype refType hfilter] at hvalid
      cases hvalid
    | true =>
      have htype : ctx.filter.ValidType view := by
        intro refType' h; rw [hfilter] at h
        cases h; exact hvalid
      cases hfind : view.findNode ctx.nodeId with
      | none => exact .error _ (by decide) (by decide) (.inl hfind)
      | some node => exact hfound htype node hfind

theorem Computed.browsed_of_valid {result : BrowseResult L}
    (h : Computed view limits p ctx p' result) (hfind : view.findNode ctx.nodeId = some node)
    (htype : ctx.filter.ValidType view) : Browsed view limits p ctx node p' result := by
  cases h with
  | browsed node' hfind' _ h =>
    have hsame : some node' = some node := hfind'.symm.trans hfind
    cases hsame; exact h
  | error status _ _ herror =>
    obtain hnone | hinvalid := herror
    · rw [hfind] at hnone; cases hnone
    · exact absurd htype hinvalid

end Browse
end S2OPC
