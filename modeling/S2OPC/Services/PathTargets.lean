import S2OPC.Services.BrowsePath

/-!
# S2OPC.Services.PathTargets

The targets of a relative path: the nodes it reaches (`Reaches`), and the nodes of other servers where
it leaves this one (`LeavesAt`). What the loops over the references, the sources and the elements
come to (`treatElements_succeeds`).
-/

namespace S2OPC
namespace Browse

open AddressSpace List View

variable {L : Type} (view : View L)

def RelativePathElement.Follows (elt : RelativePathElement) (source : NodeId)
    (target : ExpandedNodeId) : Prop :=
  ∃ node, view.findNode source = some node ∧ elt.filter.ValidType view ∧
    ∃ ref ∈ node.references, elt.filter.Matches view ref ∧ ref.targetId = target

def RelativePathElement.Names (elt : RelativePathElement) (target : ExpandedNodeId) : Prop :=
  ∃ node, view.targetNode target = some node ∧
    isQualifiedNamesEqual elt.targetName (some (view.browseName node)) = true

inductive Reaches : NodeId → List RelativePathElement → ExpandedNodeId → Prop where
  | last {source : NodeId} {elt : RelativePathElement} {target : ExpandedNodeId}
      (hfollows : elt.Follows view source target) (hnames : elt.Names view target) :
      Reaches source [elt] target
  | next {source : NodeId} {elt : RelativePathElement} {elts : List RelativePathElement}
      {node target : ExpandedNodeId} (hfollows : elt.Follows view source node)
      (hnames : elt.Names view node) (h : Reaches node.nodeId elts target) :
      Reaches source (elt :: elts) target

inductive LeavesAt : NodeId → List RelativePathElement → ExpandedNodeId → Nat → Prop where
  | here {source : NodeId} {elt : RelativePathElement} {elts : List RelativePathElement}
      {target : ExpandedNodeId} (hfollows : elt.Follows view source target)
      (hout : isLocalTarget target = false) : LeavesAt source (elt :: elts) target 1
  | later {source : NodeId} {elt : RelativePathElement} {elts : List RelativePathElement}
      {node target : ExpandedNodeId} {k : Nat} (hfollows : elt.Follows view source node)
      (hnames : elt.Names view node) (h : LeavesAt node.nodeId elts target k) :
      LeavesAt source (elt :: elts) target (k + 1)

variable {view}

instance (filter : Filter) : Decidable (filter.ValidType view) :=
  decidable_of_iff (∀ refType ∈ filter.referenceType, view.isValidReferenceTypeId refType = true)
    Iff.rfl

variable (view)

def View.outgoing (elt : RelativePathElement) (source : NodeId) : List ReferenceNode :=
  match view.findNode source with
  | none => []
  | some node =>
    if elt.filter.ValidType view then
      node.references.filter fun ref => decide (elt.filter.Matches view ref)
    else []

def View.named (elt : RelativePathElement) (ref : ReferenceNode) : Bool :=
  isQualifiedNamesEqual elt.targetName (view.describe elt.filter ref).resultBrowseName

def View.localTargets (elt : RelativePathElement) (source : NodeId) : List ExpandedNodeId :=
  ((view.outgoing elt source).filter (view.named elt)).map (·.targetId)

def View.offServer (elt : RelativePathElement) (source : NodeId) : List ExpandedNodeId :=
  ((view.outgoing elt source).filter fun ref => !isLocalTarget ref.targetId).map (·.targetId)

def View.nextSources (elt : RelativePathElement) (sources : List NodeId) : List NodeId :=
  (sources.flatMap (view.localTargets elt)).map (·.nodeId)

def View.pathEnds : List NodeId → List RelativePathElement → List ExpandedNodeId
  | _, [] => []
  | sources, [elt] => sources.flatMap (view.localTargets elt)
  | sources, elt :: elts => pathEnds (view.nextSources elt sources) elts

def View.pathExits : Nat → List NodeId → List RelativePathElement → List (ExpandedNodeId × Nat)
  | _, _, [] => []
  | index, sources, elt :: elts =>
    (sources.flatMap (view.offServer elt)).map (fun target => (target, index + 1)) ++
      pathExits (index + 1) (view.nextSources elt sources) elts

variable {view}

variable {elt : RelativePathElement} {target : ExpandedNodeId} {source : NodeId} {ref : ReferenceNode}
  {sources : List NodeId}

theorem mem_outgoing :
    (∃ ref ∈ view.outgoing elt source, ref.targetId = target) ↔ elt.Follows view source target := by
  unfold outgoing RelativePathElement.Follows
  cases hfind : view.findNode source with
  | none => simp
  | some node =>
    by_cases htype : elt.filter.ValidType view
    · simp only [if_pos htype, mem_filter, decide_eq_true_iff, Option.some.injEq]
      constructor
      · rintro ⟨ref, ⟨hmem, hmatch⟩, htarget⟩; exact ⟨node, rfl, htype, ref, hmem, hmatch, htarget⟩
      · rintro ⟨node', rfl, -, ref, hmem, hmatch, htarget⟩; exact ⟨ref, ⟨hmem, hmatch⟩, htarget⟩
    · simp [htype]

theorem length_eq_of_stringEqual {a b : ByteString} (ha : 0 < a.length)
    (h : ByteString.stringEqual a b = true) : a.length = b.length := by
  unfold ByteString.stringEqual at h
  split_ifs at h with hempty hlength
  · omega
  · exact hlength

theorem isQualifiedNamesEqual_filter {name : QualifiedName}
    (hname : isQualifiedNamesEmpty name = false) (o : Option QualifiedName) :
    isQualifiedNamesEqual name
        (o.filter fun name => 0 < name.name.length || 0 < name.namespaceIndex) =
      isQualifiedNamesEqual name o := by
  have hpos : 0 < name.name.length := by simpa [isQualifiedNamesEmpty] using hname
  cases o with
  | none => rfl
  | some name2 =>
    rw [Option.filter_some]
    split_ifs with hshown
    · rfl
    have hempty : ¬0 < name2.name.length := by intro h; simp [h] at hshown
    have hne : ByteString.stringEqual name.name name2.name = false := by
      rw [← Bool.not_eq_true]
      intro h; have hlength := length_eq_of_stringEqual hpos h
      omega
    simp [isQualifiedNamesEqual, hne]

variable (hname : isQualifiedNamesEmpty elt.targetName = false)

include hname in
theorem named_iff : view.named elt ref = true ↔ elt.Names view ref.targetId := by
  have hbrowse : (view.describe elt.filter ref).browseName =
      (view.targetNode ref.targetId).map view.browseName := by
    have hmask : (elt.filter.resultMask &&& 8 != 0) = true := by
      change ((63 : UInt32) &&& 8 != 0) = true
      decide
    simp only [describe, applyResultMaskFilter, if_pos hmask, optionalFields]
    cases view.targetNode ref.targetId <;> rfl
  rw [named, ReferenceDescription.resultBrowseName, isQualifiedNamesEqual_filter hname,
    hbrowse, RelativePathElement.Names]
  cases view.targetNode ref.targetId with
  | none => simp [isQualifiedNamesEqual]
  | some node => simp

include hname in
theorem mem_localTargets :
    target ∈ view.localTargets elt source ↔
      elt.Follows view source target ∧ elt.Names view target := by
  rw [← mem_outgoing, localTargets]
  simp only [mem_map, mem_filter]
  constructor
  · rintro ⟨ref, ⟨hmem, hnamed⟩, rfl⟩; exact ⟨⟨ref, hmem, rfl⟩, (named_iff hname).mp hnamed⟩
  · rintro ⟨⟨ref, hmem, rfl⟩, hnames⟩; exact ⟨ref, ⟨hmem, (named_iff hname).mpr hnames⟩, rfl⟩

theorem mem_offServer :
    target ∈ view.offServer elt source ↔
      elt.Follows view source target ∧ isLocalTarget target = false := by
  rw [← mem_outgoing, offServer]
  simp only [mem_map, mem_filter, Bool.not_eq_true']
  constructor
  · rintro ⟨ref, ⟨hmem, hout⟩, rfl⟩; exact ⟨⟨ref, hmem, rfl⟩, hout⟩
  · rintro ⟨⟨ref, hmem, rfl⟩, hout⟩; exact ⟨ref, ⟨hmem, hout⟩, rfl⟩

theorem mem_pathEnds (path : List RelativePathElement)
    (hnames : ∀ elt ∈ path, isQualifiedNamesEmpty elt.targetName = false) (sources : List NodeId) :
    target ∈ view.pathEnds sources path ↔ ∃ source ∈ sources, Reaches view source path target := by
  induction path generalizing sources with
  | nil =>
    simp only [pathEnds, not_mem_nil, false_iff, not_exists, not_and]
    intro source _ h; cases h
  | cons elt elts ih =>
    have hname := hnames elt mem_cons_self
    have ih := ih fun e he => hnames e (mem_cons_of_mem elt he)
    cases elts with
    | nil =>
      simp only [pathEnds, mem_flatMap, mem_localTargets hname]
      constructor
      · rintro ⟨source, hmem, hfollows, hn⟩; exact ⟨source, hmem, .last hfollows hn⟩
      · rintro ⟨source, hmem, h⟩
        cases h with
        | last hfollows hn => exact ⟨source, hmem, hfollows, hn⟩
        | next _ _ h => cases h
    | cons elt' elts =>
      simp only [pathEnds, ih, nextSources, mem_map, mem_flatMap]
      constructor
      · rintro ⟨_, ⟨node, ⟨source, hmem, hnode⟩, rfl⟩, h⟩
        obtain ⟨hfollows, hn⟩ := (mem_localTargets hname).mp hnode
        exact ⟨source, hmem, .next hfollows hn h⟩
      · rintro ⟨source, hmem, h⟩
        cases h with
        | next hfollows hn h =>
          exact ⟨_, ⟨_, ⟨source, hmem, (mem_localTargets hname).mpr ⟨hfollows, hn⟩⟩, rfl⟩, h⟩

theorem mem_pathExits {k : Nat} (path : List RelativePathElement)
    (hnames : ∀ elt ∈ path, isQualifiedNamesEmpty elt.targetName = false) (index : Nat)
    (sources : List NodeId) :
    (target, k) ∈ view.pathExits index sources path ↔
      ∃ source ∈ sources, ∃ j, k = index + j ∧ LeavesAt view source path target j := by
  induction path generalizing index sources with
  | nil =>
    simp only [pathExits, not_mem_nil, false_iff, not_exists, not_and]
    intro source _ j _ h; cases h
  | cons elt elts ih =>
    have hname := hnames elt mem_cons_self
    have ih := ih fun e he => hnames e (mem_cons_of_mem elt he)
    simp only [pathExits, mem_append, ih, mem_map, mem_flatMap, Prod.mk.injEq, nextSources]
    constructor
    · rintro (⟨_, ⟨source, hmem, hout⟩, rfl, rfl⟩ | ⟨_, ⟨node, ⟨source, hmem, hnode⟩, rfl⟩, j,
        rfl, h⟩)
      · obtain ⟨hfollows, hout⟩ := mem_offServer.mp hout
        exact ⟨source, hmem, 1, rfl, .here hfollows hout⟩
      · obtain ⟨hfollows, hn⟩ := (mem_localTargets hname).mp hnode
        exact ⟨source, hmem, j + 1, by omega, .later hfollows hn h⟩
    · rintro ⟨source, hmem, j, rfl, h⟩
      cases h with
      | here hfollows hout =>
        exact .inl ⟨target, ⟨source, hmem, mem_offServer.mpr ⟨hfollows, hout⟩⟩, rfl, rfl⟩
      | later hfollows hn h =>
        exact .inr ⟨_, ⟨_, ⟨source, hmem, (mem_localTargets hname).mpr ⟨hfollows, hn⟩⟩, rfl⟩, _,
          by omega, h⟩

theorem isLocalTarget_of_names (h : elt.Names view target) : isLocalTarget target = true := by
  obtain ⟨node, hnode, -⟩ := h
  unfold targetNode at hnode
  split_ifs at hnode with hlocal
  exact hlocal

variable (view) in
def View.sourceStatus (elt : RelativePathElement) (source : NodeId) : PathStatus :=
  if view.offServer elt source ≠ [] then .uncertainReferenceOutOfServer
  else if view.localTargets elt source ≠ [] then .ok
  else .badNoMatch

variable {limits : PathLimits}

include hname in
theorem treatBrowseResultOneSource_eq (index : Nat) (refs : List ReferenceNode)
    (status : PathStatus) (s : PathState)
    (hstatus : status = .ok ∨ status = .uncertainReferenceOutOfServer ∨ status = .badNoMatch)
    (hresults : s.results.length + (refs.filter (view.named elt)).length ≤ limits.resPerElt)
    (hremaining : s.remaining.length + (refs.filter fun ref => !isLocalTarget ref.targetId).length ≤
      limits.resPerElt) :
    treatBrowseResultOneSource limits index elt.targetName (refs.map (view.describe elt.filter))
        status s =
      (if (refs.filter fun ref => !isLocalTarget ref.targetId) ≠ [] ∨
          status = .uncertainReferenceOutOfServer then .uncertainReferenceOutOfServer
        else if refs.filter (view.named elt) ≠ [] then .ok else status,
        ⟨s.results ++ (refs.filter (view.named elt)).map (·.targetId),
          s.remaining ++ ((refs.filter fun ref => !isLocalTarget ref.targetId).map
            fun ref => (ref.targetId, index))⟩) := by
  induction refs generalizing status s with
  | nil =>
    simp only [map_nil, filter_nil, treatBrowseResultOneSource, append_nil, ne_eq,
      not_true_eq_false, false_or, if_false]
    split_ifs with h
    · rw [h]
    · rfl
  | cons ref refs ih =>
    have hid : (view.describe elt.filter ref).nodeId = ref.targetId := rfl
    have hequal : isQualifiedNamesEqual elt.targetName
        (view.describe elt.filter ref).resultBrowseName = view.named elt ref := rfl
    rw [map_cons, treatBrowseResultOneSource, PathState.treatReference, hid, hequal]
    cases hnamed : view.named elt ref with
    | true =>
      have hlocal := isLocalTarget_of_names ((named_iff hname).mp hnamed)
      simp only [filter_cons, hnamed, hlocal, if_true, length_cons] at hresults hremaining
      have hroom : s.results.length ≠ limits.resPerElt := by omega
      have hresults' : (s.results ++ [ref.targetId]).length +
          (refs.filter (view.named elt)).length ≤ limits.resPerElt := by
        simp; omega
      simp only [if_true, PathState.checkAndAddResult, if_neg hroom, true_and]
      by_cases huncertain : status = .uncertainReferenceOutOfServer
      · simp only [huncertain, or_true, true_or, if_true]
        rw [ih _ { s with results := s.results ++ [ref.targetId] } (.inr (.inl rfl)) hresults'
          hremaining]
        simp [hnamed, hlocal]
      · simp only [huncertain, true_or, if_true, if_false]
        rw [ih _ { s with results := s.results ++ [ref.targetId] } (.inl rfl) hresults' hremaining]
        simp [hnamed, hlocal]
    | false =>
      cases hlocal : isLocalTarget ref.targetId with
      | true =>
        simp only [filter_cons, hnamed, hlocal] at hresults hremaining
        simp only [Bool.false_eq_true, if_false, if_true, if_pos hstatus]
        rw [ih status s hstatus hresults hremaining]
        simp [hnamed, hlocal]
      | false =>
        simp only [filter_cons, hnamed, hlocal, Bool.not_false, if_true,
          length_cons] at hresults hremaining
        have hroom : s.remaining.length ≠ limits.resPerElt := by omega
        have hremaining' : (s.remaining ++ [(ref.targetId, index)]).length +
            (refs.filter fun ref => !isLocalTarget ref.targetId).length ≤ limits.resPerElt := by
          simp; omega
        simp only [Bool.false_eq_true, if_false, PathState.checkAndAddRemaining, if_neg hroom,
          or_true, true_or, if_true]
        rw [ih _ { s with remaining := s.remaining ++ [(ref.targetId, index)] } (.inr (.inl rfl))
          hresults hremaining']
        simp [hnamed, hlocal]

variable (view limits) in
def View.FitsOnPage (elt : RelativePathElement) (source : NodeId) : Prop :=
  ∀ node, view.findNode source = some node →
    node.references.length ≤ limits.targets ∨
      (view.matching elt.filter node).length < limits.targets

theorem pageFrom_of_fits {node : Node} (hfits : view.FitsOnPage limits elt source)
    (hfind : view.findNode source = some node) :
    view.pageFrom limits.toLimits ⟨1, 0, 0, source, elt.filter, false⟩ node =
      (view.matching elt.filter node, []) := by
  have hrest : (view.pageFrom limits.toLimits ⟨1, 0, 0, source, elt.filter, false⟩ node).2 = [] := by
    refine Paging.page_rest_eq_nil _ ?_
    have hfits := hfits node hfind
    rw [matching_eq] at hfits
    simp only [minNbResultRefs, Nat.sub_self, drop_zero, true_or, if_true]
    split_ifs <;> omega
  have happend := pageFrom_append view limits.toLimits ⟨1, 0, 0, source, elt.filter, false⟩ node
  rw [hrest, filterMap_nil, append_nil] at happend
  refine Prod.ext ?_ hrest
  rw [happend, matching_eq]
  rfl

theorem computeBrowseResult_of_invalid {ctx : Context} (p : Points)
    (h : ¬ctx.filter.ValidType view) :
    view.computeBrowseResult limits.toLimits p ctx = (p, .error .badReferenceTypeIdInvalid) := by
  unfold computeBrowseResult
  cases htype : ctx.filter.referenceType with
  | none => refine absurd ?_ h; intro refType hsome; rw [htype] at hsome; cases hsome
  | some refType =>
    dsimp only
    cases hvalid : view.isValidReferenceTypeId refType with
    | false => rfl
    | true =>
      refine absurd ?_ h
      intro refType' hsome; rw [htype] at hsome
      cases hsome; exact hvalid

theorem computeBrowseResultFromSource_eq {node : Node} (p : Points)
    (hfits : view.FitsOnPage limits elt source) (hfind : view.findNode source = some node) :
    view.computeBrowseResultFromSource limits p elt source =
      if elt.filter.ValidType view then
        (.ok, (view.outgoing elt source).map (view.describe elt.filter))
      else (.badNoMatch, []) := by
  by_cases htype : elt.filter.ValidType view
  · have hpage := pageFrom_of_fits hfits hfind
    have hbrowsed := (computeBrowseResult_computed view limits.toLimits p
      ⟨1, 0, 0, source, elt.filter, false⟩).browsed_of_valid hfind htype
    have houtgoing : view.outgoing elt source =
        node.references.filter fun ref => decide (elt.filter.Matches view ref) := by
      rw [outgoing, hfind]
      exact if_pos htype
    rw [if_pos htype, houtgoing, computeBrowseResultFromSource]
    generalize view.computeBrowseResult limits.toLimits p ⟨1, 0, 0, source, elt.filter, false⟩ = r
      at hbrowsed
    obtain ⟨p', result⟩ := r
    dsimp only at hbrowsed ⊢
    cases hbrowsed with
    | last => rw [hpage]; rfl
    | more _ _ hrest => exact absurd (congrArg Prod.snd hpage) hrest
    | full hrest => exact absurd (congrArg Prod.snd hpage) hrest
  · rw [if_neg htype, computeBrowseResultFromSource, computeBrowseResult_of_invalid p htype]
    rfl

theorem outgoing_of_invalid (h : ¬elt.filter.ValidType view) (source : NodeId) :
    view.outgoing elt source = [] := by
  unfold outgoing
  cases view.findNode source with
  | none => rfl
  | some node => exact if_neg h

/-- The statuses of the sources, one after the other: a success is kept, anything else is
overwritten. -/
def View.elementStatus (view : View L) (elt : RelativePathElement) (sources : List NodeId) :
    PathStatus :=
  sources.foldl (fun status source => if status ≠ .ok then view.sourceStatus elt source else status)
    .badNothingToDo

include hname in
theorem treatSources_eq (p : Points) (index : Nat) (sources : List NodeId) (status : PathStatus)
    (s : PathState)
    (hsources : ∀ source ∈ sources, view.FitsOnPage limits elt source ∧ view.findNode source ≠ none)
    (hstatus : elt.filter.ValidType view ∨ status ≠ .ok)
    (hresults : s.results.length + (sources.flatMap (view.localTargets elt)).length ≤
      limits.resPerElt)
    (hremaining : s.remaining.length + (sources.flatMap (view.offServer elt)).length ≤
      limits.resPerElt) :
    view.treatSources limits p elt index sources status s =
      (sources.foldl
        (fun status source => if status ≠ .ok then view.sourceStatus elt source else status) status,
        ⟨s.results ++ sources.flatMap (view.localTargets elt),
          s.remaining ++ (sources.flatMap (view.offServer elt)).map fun t => (t, index)⟩) := by
  induction sources generalizing status s with
  | nil => simp [treatSources]
  | cons source sources ih =>
    obtain ⟨hfits, hknown⟩ := hsources source mem_cons_self
    have hsources' := fun src hsrc => hsources src (mem_cons_of_mem source hsrc)
    obtain ⟨node, hfind⟩ := Option.ne_none_iff_exists'.mp hknown
    rw [flatMap_cons, length_append] at hresults hremaining
    simp only [treatSources, computeBrowseResultFromSource_eq p hfits hfind]
    by_cases htype : elt.filter.ValidType view
    · simp only [if_pos htype, ne_eq, not_true_eq_false, if_false]
      rw [localTargets, length_map] at hresults
      rw [offServer, length_map] at hremaining
      rw [treatBrowseResultOneSource_eq hname index _ .badNoMatch s (.inr (.inr rfl)) (by omega)
        (by omega)]
      simp only
      rw [ih _ _ hsources' (.inl htype)]
      · simp [flatMap_cons, foldl_cons, sourceStatus, localTargets, offServer, Function.comp_def]
      · simp only [length_append, length_map]; omega
      · simp only [length_append, length_map]; omega
    · have hnone := outgoing_of_invalid htype source
      have hstatus' : status ≠ .ok := hstatus.resolve_left htype
      have hlocal : view.localTargets elt source = [] := by simp [localTargets, hnone]
      have hoff : view.offServer elt source = [] := by simp [offServer, hnone]
      have hsource : view.sourceStatus elt source = .badNoMatch := by
        simp [sourceStatus, hlocal, hoff]
      rw [hlocal, length_nil] at hresults
      rw [hoff, length_nil] at hremaining
      simp only [if_neg htype]
      rw [if_pos (by decide), ih _ _ hsources' (.inr (by decide)) (by omega) (by omega)]
      simp [hlocal, hoff, hsource, hstatus']

theorem foldl_status_eq (f : NodeId → PathStatus) (sources : List NodeId) (status : PathStatus) :
    sources.foldl (fun status source => if status ≠ .ok then f source else status) status =
      if status = .ok ∨ ∃ source ∈ sources, f source = .ok then .ok
      else (sources.getLast?.map f).getD status := by
  induction sources generalizing status with
  | nil =>
    by_cases h : status = .ok
    · simp [h]
    · simp [h]
  | cons source sources ih =>
    rw [foldl_cons, ih]
    by_cases h : status = .ok
    · simp [h]
    by_cases hf : f source = .ok
    · simp [h, hf]
    · cases hlast : sources.getLast? with
      | none => rw [getLast?_eq_none_iff] at hlast; simp [h, hf, hlast]
      | some last => simp [h, hf, hlast, getLast?_cons]

variable (view) in
/-- An element finds nodes with its name from a source, and does not leave the server there. -/
def RelativePathElement.StaysAt (elt : RelativePathElement) (source : NodeId) : Prop :=
  (∃ target, elt.Follows view source target ∧ elt.Names view target) ∧
    ∀ target, elt.Follows view source target → isLocalTarget target = true

variable (view) in
def RelativePathElement.LeavesFrom (elt : RelativePathElement) (source : NodeId) : Prop :=
  ∃ target, elt.Follows view source target ∧ isLocalTarget target = false

theorem offServer_ne_nil : view.offServer elt source ≠ [] ↔ elt.LeavesFrom view source := by
  rw [Ne, eq_nil_iff_forall_not_mem, not_forall]
  simp [mem_offServer, RelativePathElement.LeavesFrom]

include hname in
theorem localTargets_ne_nil :
    view.localTargets elt source ≠ [] ↔
      ∃ target, elt.Follows view source target ∧ elt.Names view target := by
  rw [Ne, eq_nil_iff_forall_not_mem, not_forall]
  simp [mem_localTargets hname]

include hname in
theorem staysAt_iff : elt.StaysAt view source ↔ view.sourceStatus elt source = .ok := by
  have hleaves : elt.LeavesFrom view source ↔
      ¬∀ target, elt.Follows view source target → isLocalTarget target = true := by
    simp [RelativePathElement.LeavesFrom]
  unfold sourceStatus RelativePathElement.StaysAt
  rw [← localTargets_ne_nil hname]
  split_ifs with hoff hlocal
  · simp [hleaves.mp (offServer_ne_nil.mp hoff)]
  · simp only [ne_eq, hlocal, not_false_eq_true, true_and, iff_true]
    exact not_not.mp fun h => hoff (offServer_ne_nil.mpr (hleaves.mpr h))
  · simp [hlocal]

theorem leavesFrom_iff :
    elt.LeavesFrom view source ↔
      view.sourceStatus elt source = .uncertainReferenceOutOfServer := by
  rw [← offServer_ne_nil, sourceStatus]
  split_ifs with hoff hlocal
  · simp [hoff]
  · simp [hoff]
  · simp [hoff]

variable (view) in
/-- What makes an element succeed: a source from which it stays on the server, or a last source from
which it leaves it. -/
def RelativePathElement.Succeeds (elt : RelativePathElement) (sources : List NodeId) : Prop :=
  (∃ source ∈ sources, elt.StaysAt view source) ∨
    ∃ source, sources.getLast? = some source ∧ elt.LeavesFrom view source

theorem elementStatus_of_stays (h : ∃ source ∈ sources, view.sourceStatus elt source = .ok) :
    view.elementStatus elt sources = .ok := by
  rw [elementStatus, foldl_status_eq, if_pos (.inr h)]

theorem elementStatus_of_not_stays (h : ¬∃ source ∈ sources, view.sourceStatus elt source = .ok) :
    view.elementStatus elt sources =
      (sources.getLast?.map (view.sourceStatus elt)).getD .badNothingToDo := by
  rw [elementStatus, foldl_status_eq, if_neg]
  rintro (hnothing | hok)
  · cases hnothing
  · exact h hok

include hname in
theorem elementStatus_ok :
    view.elementStatus elt sources = .ok ↔ ∃ source ∈ sources, elt.StaysAt view source := by
  simp only [staysAt_iff hname]
  by_cases h : ∃ source ∈ sources, view.sourceStatus elt source = .ok
  · exact iff_of_true (elementStatus_of_stays h) h
  refine iff_of_false ?_ h
  rw [elementStatus_of_not_stays h]
  cases hlast : sources.getLast? with
  | none => simp
  | some last => intro hok; exact h ⟨last, mem_of_getLast? hlast, hok⟩

include hname in
theorem succeeds_iff :
    view.elementStatus elt sources = .ok ∨
        view.elementStatus elt sources = .uncertainReferenceOutOfServer ↔
      elt.Succeeds view sources := by
  rw [elementStatus_ok hname, RelativePathElement.Succeeds]
  by_cases hstays : ∃ source ∈ sources, elt.StaysAt view source
  · exact iff_of_true (.inl hstays) (.inl hstays)
  rw [or_iff_right hstays, or_iff_right hstays]
  simp only [staysAt_iff hname] at hstays
  rw [elementStatus_of_not_stays hstays]
  cases sources.getLast? with
  | none => simp
  | some last => simp [leavesFrom_iff]

variable (view) in
def View.Followed : List NodeId → List RelativePathElement → Prop
  | _, [] => True
  | sources, elt :: elts =>
    isQualifiedNamesEmpty elt.targetName = false ∧ elt.Succeeds view sources ∧
      Followed (view.nextSources elt sources) elts

variable (view) in
def View.StaysAtEnd : List NodeId → List RelativePathElement → Prop
  | _, [] => False
  | sources, [elt] => ∃ source ∈ sources, elt.StaysAt view source
  | sources, elt :: elts => StaysAtEnd (view.nextSources elt sources) elts

variable (view limits) in
def View.Fits : Nat → List NodeId → List RelativePathElement → Prop
  | _, _, [] => True
  | count, sources, elt :: elts =>
    (∀ source ∈ sources, view.FitsOnPage limits elt source) ∧
      (sources.flatMap (view.localTargets elt)).length ≤ limits.resPerElt ∧
      count + (sources.flatMap (view.offServer elt)).length ≤ limits.resPerElt ∧
      Fits (count + (sources.flatMap (view.offServer elt)).length) (view.nextSources elt sources)
        elts

include hname in
theorem treatOneRelativePathElement_eq (p : Points) (index : Nat) (hknown : ∀ source ∈ sources, view.findNode source ≠ none)
    {remaining : List (ExpandedNodeId × Nat)} {elts : List RelativePathElement}
    (hfits : view.Fits limits remaining.length sources (elt :: elts)) :
    view.treatOneRelativePathElement limits p elt index sources ⟨[], remaining⟩ =
      (view.elementStatus elt sources, ⟨sources.flatMap (view.localTargets elt),
        remaining ++ (sources.flatMap (view.offServer elt)).map fun t => (t, index)⟩) := by
  obtain ⟨hpages, hresults, hremaining, -⟩ := hfits
  unfold treatOneRelativePathElement
  rw [hname, treatSources_eq hname p index sources _ _ (fun source h => ⟨hpages source h,
    hknown source h⟩) (.inr (by decide)) (by simpa using hresults) hremaining]
  simp [elementStatus]

include hname in
theorem nextSources_known (sources : List NodeId) : ∀ source ∈ view.nextSources elt sources,
      view.findNode source ≠ none := by
  intro source hsource; simp only [nextSources, mem_map, mem_flatMap] at hsource
  obtain ⟨target, ⟨src, -, htarget⟩, rfl⟩ := hsource
  obtain ⟨-, node, hnode, -⟩ := (mem_localTargets hname).mp htarget
  unfold targetNode at hnode
  split_ifs at hnode
  rw [hnode]
  exact Option.some_ne_none node

theorem treatElements_succeeds (p : Points) (path : List RelativePathElement) (index : Nat)
    (sources : List NodeId) (remaining : List (ExpandedNodeId × Nat)) (hne : path ≠ [])
    (hknown : ∀ source ∈ sources, view.findNode source ≠ none)
    (hfits : view.Fits limits remaining.length sources path) :
    ((view.treatElements limits p path index sources remaining).1 = .ok ∨
        (view.treatElements limits p path index sources remaining).1 =
          .uncertainReferenceOutOfServer ↔ view.Followed sources path) ∧
      (view.Followed sources path →
        (view.treatElements limits p path index sources remaining).2 =
          ⟨view.pathEnds sources path, remaining ++ view.pathExits index sources path⟩ ∧
        ((view.treatElements limits p path index sources remaining).1 = .ok ↔
          view.StaysAtEnd sources path)) := by
  induction path generalizing index sources remaining with
  | nil => exact absurd rfl hne
  | cons elt elts ih =>
    cases hname : isQualifiedNamesEmpty elt.targetName with
    | true =>
      have hbad : view.treatElements limits p (elt :: elts) index sources remaining =
          (.badBrowseNameInvalid, ⟨[], remaining⟩) := by
        simp [treatElements, treatOneRelativePathElement, hname]
      have hnot : ¬view.Followed sources (elt :: elts) := by
        intro h; rw [View.Followed, hname] at h
        cases h.1
      rw [hbad]
      refine ⟨iff_of_false ?_ hnot, fun h => absurd h hnot⟩
      rintro (h | h) <;> cases h
    | false =>
      have helement := treatOneRelativePathElement_eq hname p (index + 1) hknown hfits
      cases elts with
      | nil =>
        have hlast : view.treatElements limits p [elt] index sources remaining =
            (view.elementStatus elt sources, ⟨sources.flatMap (view.localTargets elt), remaining ++
              (sources.flatMap (view.offServer elt)).map fun t => (t, index + 1)⟩) := by
          simp [treatElements, helement]
        rw [hlast, succeeds_iff hname]
        refine ⟨?_, ?_⟩
        · simp [View.Followed, hname]
        · intro _; refine ⟨?_, elementStatus_ok hname⟩; simp [pathEnds, pathExits]
      | cons elt' elts =>
        by_cases hsucceeds : elt.Succeeds view sources
        · -- the rest of the path starts from what this element found
          have hnext : view.treatElements limits p (elt :: elt' :: elts) index sources remaining =
              view.treatElements limits p (elt' :: elts) (index + 1)
                (view.nextSources elt sources) (remaining ++
                  (sources.flatMap (view.offServer elt)).map fun t => (t, index + 1)) := by
            rw [treatElements, helement]
            simp only [ne_eq, reduceCtorEq, not_false_eq_true, true_and,
              if_pos ((succeeds_iff hname).mpr hsucceeds), nextSources]
          obtain ⟨hfollowed, hends⟩ := ih (index + 1) (view.nextSources elt sources)
            (remaining ++ (sources.flatMap (view.offServer elt)).map fun t => (t, index + 1))
            (cons_ne_nil elt' elts) (nextSources_known hname sources)
            (by simpa using hfits.2.2.2)
          have hiff : view.Followed sources (elt :: elt' :: elts) ↔
              view.Followed (view.nextSources elt sources) (elt' :: elts) := by
            rw [View.Followed, and_iff_right hname, and_iff_right hsucceeds]
          rw [hnext, hiff]
          refine ⟨hfollowed, fun h => ⟨(hends h).1.trans ?_, (hends h).2⟩⟩
          simp [pathEnds, pathExits]
        · have hstop : view.treatElements limits p (elt :: elt' :: elts) index sources remaining =
              (view.elementStatus elt sources, ⟨sources.flatMap (view.localTargets elt),
                remaining ++
                  (sources.flatMap (view.offServer elt)).map fun t => (t, index + 1)⟩) := by
            rw [treatElements, helement]
            simp only [if_neg fun h : _ ∧ _ => hsucceeds ((succeeds_iff hname).mp h.2)]
          have hnot : ¬view.Followed sources (elt :: elt' :: elts) := fun h => hsucceeds h.2.1
          rw [hstop, succeeds_iff hname]
          exact ⟨iff_of_false hsucceeds hnot, fun h => absurd h hnot⟩

end Browse
end S2OPC
