import S2OPC.Services.PathTargets

/-!
# S2OPC.Services.PathResults

The result of the translation of a path against its targets (`Faithful`). The statuses of the sources
of an element, and those of the elements, overwrite one another, so that the result is not always
what it should be (`translation_faithful_iff`).
-/

namespace S2OPC
namespace Browse

open AddressSpace List Points NodeId

variable {L : Type} {view : View L} {limits : PathLimits}

variable (view) in
structure Faithful (startingNode : Option NodeId) (path : List RelativePathElement)
    (result : PathResult) : Prop where
  succeeds : result.status = .ok ∨ result.status = .uncertainReferenceOutOfServer ↔
    ∃ start, startingNode = some start ∧
      ((∃ target, Reaches view start path target) ∨ ∃ target k, LeavesAt view start path target k)
  reached : ∀ target, (target, none) ∈ result.targets ↔
    ∃ start, startingNode = some start ∧ Reaches view start path target
  left : ∀ target k, (target, some k) ∈ result.targets ↔
    ∃ start, startingNode = some start ∧ LeavesAt view start path target k
  uncertain : result.status = .uncertainReferenceOutOfServer ↔
    ∃ start, startingNode = some start ∧ ∃ target k, LeavesAt view start path target k

variable (view) in
def HasTarget (start : NodeId) (path : List RelativePathElement) : Prop :=
  (∃ target, Reaches view start path target) ∨ ∃ target k, LeavesAt view start path target k

theorem followed_names (path : List RelativePathElement) (sources : List NodeId)
    (h : view.Followed sources path) :
    ∀ elt ∈ path, isQualifiedNamesEmpty elt.targetName = false := by
  induction path generalizing sources with
  | nil => intro elt helt; exact absurd helt not_mem_nil
  | cons elt elts ih => exact forall_mem_cons.mpr ⟨h.1, ih _ h.2.2⟩

theorem followed_targets (path : List RelativePathElement) (sources : List NodeId)
    (hne : path ≠ []) (h : view.Followed sources path) :
    (view.StaysAtEnd sources path ∧ ∃ source ∈ sources, ∃ target, Reaches view source path target) ∨
      ∃ source ∈ sources, ∃ target k, LeavesAt view source path target k := by
  induction path generalizing sources with
  | nil => exact absurd rfl hne
  | cons elt elts ih =>
    obtain ⟨hname, hsucceeds, hnext⟩ := h
    cases elts with
    | nil =>
      obtain ⟨source, hmem, hstays⟩ | ⟨source, hlast, target, hfollows, hout⟩ := hsucceeds
      · obtain ⟨target, hfollows, hnames⟩ := hstays.1
        exact .inl ⟨⟨source, hmem, hstays⟩, source, hmem, target, .last hfollows hnames⟩
      · exact .inr ⟨source, mem_of_getLast? hlast, target, 1, .here hfollows hout⟩
    | cons elt' elts =>
      have hsource : ∀ src ∈ view.nextSources elt sources, ∃ source ∈ sources, ∃ node,
          elt.Follows view source node ∧ elt.Names view node ∧ node.nodeId = src := by
        intro src hsrc; simp only [View.nextSources, mem_map, mem_flatMap] at hsrc
        obtain ⟨node, ⟨source, hsource, hnode⟩, rfl⟩ := hsrc
        obtain ⟨hfollows, hnames⟩ := (mem_localTargets hname).mp hnode
        exact ⟨source, hsource, node, hfollows, hnames, rfl⟩
      obtain ⟨hstays, src, hsrc, target, hreaches⟩ | ⟨src, hsrc, target, k, hleaves⟩ :=
        ih _ (cons_ne_nil elt' elts) hnext
      · obtain ⟨source, hmem, node, hfollows, hnames, rfl⟩ := hsource src hsrc
        exact .inl ⟨hstays, source, hmem, target, .next hfollows hnames hreaches⟩
      · obtain ⟨source, hmem, node, hfollows, hnames, rfl⟩ := hsource src hsrc
        exact .inr ⟨source, hmem, target, k + 1, .later hfollows hnames hleaves⟩

variable {path : List RelativePathElement} {start : NodeId}

theorem followed_hasTarget (hne : path ≠ []) (h : view.Followed [start] path) :
    HasTarget view start path := by
  obtain ⟨-, source, hmem, target, hreaches⟩ | ⟨source, hmem, hleaves⟩ :=
    followed_targets path [start] hne h
  · rw [mem_singleton.mp hmem] at hreaches; exact .inl ⟨target, hreaches⟩
  · rw [mem_singleton.mp hmem] at hleaves; exact .inr hleaves

theorem followed_leaves (hne : path ≠ []) (h : view.Followed [start] path)
    (hstays : ¬view.StaysAtEnd [start] path) : ∃ target k, LeavesAt view start path target k := by
  obtain ⟨hend, -⟩ | ⟨source, hmem, hleaves⟩ := followed_targets path [start] hne h
  · exact absurd hend hstays
  · rwa [mem_singleton.mp hmem] at hleaves

theorem hasTarget_ne_nil (h : HasTarget view start path) : path ≠ [] := by
  rintro rfl
  obtain ⟨target, h⟩ | ⟨target, k, h⟩ := h <;> cases h

theorem hasTarget_known (h : HasTarget view start path) : view.findNode start ≠ none := by
  have hfollows : ∀ {elt : RelativePathElement} {target : ExpandedNodeId},
      elt.Follows view start target → view.findNode start ≠ none := by
    rintro elt target ⟨node, hnode, -⟩; rw [hnode]
    exact Option.some_ne_none node
  obtain ⟨target, h⟩ | ⟨target, k, h⟩ := h
  · cases h with
    | last h => exact hfollows h
    | next h => exact hfollows h
  · cases h with
    | here h => exact hfollows h
    | later h => exact hfollows h

variable (view limits) in
def WithinLimits (start : NodeId) (path : List RelativePathElement) : Prop :=
  view.Fits limits 0 [start] path ∧
    (view.pathEnds [start] path).length + (view.pathExits 0 [start] path).length ≤
      limits.resPerPath

variable (view) in
/-- No status hides another one: every element succeeds, and if the path leaves the server somewhere,
no source of the last element has the last word with what it finds on the server. -/
def StatusesAgree (start : NodeId) (path : List RelativePathElement) : Prop :=
  view.Followed [start] path ∧
    ((∃ target k, LeavesAt view start path target k) → ¬view.StaysAtEnd [start] path)

theorem treatOneTranslateBrowsePath_of_not_followed (p : Points) (hne : path ≠ [])
    (hknown : view.findNode start ≠ none) (hlimits : WithinLimits view limits start path)
    (h : ¬view.Followed [start] path) :
    ∃ status, status ≠ .ok ∧ status ≠ .uncertainReferenceOutOfServer ∧
      view.treatOneTranslateBrowsePath limits p (some start) path = ⟨status, []⟩ := by
  have helements := (treatElements_succeeds p path 0 [start] [] hne
    (by simpa using hknown) hlimits.1).1
  have hstatus := mt helements.mp h
  refine ⟨_, fun hok => hstatus (.inl hok), fun huncertain => hstatus (.inr huncertain), ?_⟩
  simp only [View.treatOneTranslateBrowsePath, if_neg hne, Option.isNone_iff_eq_none,
    if_neg hknown, if_neg hstatus]

theorem treatOneTranslateBrowsePath_of_followed (p : Points) (hne : path ≠ [])
    (hknown : view.findNode start ≠ none) (hlimits : WithinLimits view limits start path)
    (h : view.Followed [start] path) :
    ∃ status, (status = .ok ∨ status = .uncertainReferenceOutOfServer) ∧
      (status = .ok ↔ view.StaysAtEnd [start] path) ∧
      view.treatOneTranslateBrowsePath limits p (some start) path =
        ⟨status, (view.pathEnds [start] path).map (fun target => (target, none)) ++
          (view.pathExits 0 [start] path).map fun x => (x.1, some x.2)⟩ := by
  obtain ⟨hsucceeds, hstate⟩ := treatElements_succeeds p path 0 [start] [] hne
    (by simpa using hknown) hlimits.1
  obtain ⟨hstate, hstays⟩ := hstate h
  refine ⟨_, hsucceeds.mpr h, hstays, ?_⟩
  rw [nil_append] at hstate
  simp only [View.treatOneTranslateBrowsePath, if_neg hne, Option.isNone_iff_eq_none,
    if_neg hknown, if_pos (hsucceeds.mpr h), hstate, PathState.copyToMsg, if_pos hlimits.2]

variable {ends : List ExpandedNodeId} {exits : List (ExpandedNodeId × Nat)}
  {target : ExpandedNodeId} {startingNode : Option NodeId} {status : PathStatus}

theorem mem_targets_none
    :
    (target, none) ∈ ends.map (fun target => (target, (none : Option Nat))) ++
      exits.map (fun x => (x.1, some x.2)) ↔ target ∈ ends := by
  simp

theorem mem_targets_some
    {k : Nat} :
    (target, some k) ∈ ends.map (fun target => (target, (none : Option Nat))) ++
      exits.map (fun x => (x.1, some x.2)) ↔ (target, k) ∈ exits := by
  simp

theorem faithful_of_failure
    (h : ∀ start, startingNode = some start → ¬HasTarget view start path)
    (hok : status ≠ .ok) (huncertain : status ≠ .uncertainReferenceOutOfServer) :
    Faithful view startingNode path ⟨status, []⟩ := by
  refine ⟨iff_of_false ?_ ?_, fun target => iff_of_false not_mem_nil ?_,
    fun target k => iff_of_false not_mem_nil ?_, iff_of_false huncertain ?_⟩
  · rintro (h | h)
    · exact hok h
    · exact huncertain h
  · rintro ⟨start, hstart, htarget⟩; exact h start hstart htarget
  · rintro ⟨start, hstart, hreaches⟩; exact h start hstart (.inl ⟨target, hreaches⟩)
  · rintro ⟨start, hstart, hleaves⟩; exact h start hstart (.inr ⟨target, k, hleaves⟩)
  · rintro ⟨start, hstart, hleaves⟩; exact h start hstart (.inr hleaves)

theorem treatOneTranslateBrowsePath_of_no_target (p : Points)
    (hlimits : ∀ start, startingNode = some start → WithinLimits view limits start path)
    (h : ∀ start, startingNode = some start → ¬HasTarget view start path) :
    ∃ status, status ≠ .ok ∧ status ≠ .uncertainReferenceOutOfServer ∧
      view.treatOneTranslateBrowsePath limits p startingNode path = ⟨status, []⟩ := by
  by_cases hne : path = []
  · exact ⟨.badNothingToDo, by decide, by decide, if_pos hne⟩
  cases startingNode with
  | none => exact ⟨.badNodeIdInvalid, by decide, by decide, if_neg hne⟩
  | some start =>
    by_cases hknown : view.findNode start = none
    · refine ⟨.badNodeIdUnknown, by decide, by decide, ?_⟩
      simp [View.treatOneTranslateBrowsePath, hne, hknown]
    · exact treatOneTranslateBrowsePath_of_not_followed p hne hknown (hlimits start rfl)
        (mt (followed_hasTarget hne) (h start rfl))

theorem faithful_of_followed_iff (hne : path ≠ []) (h : view.Followed [start] path)
    (hstatus : status = .ok ∨ status = .uncertainReferenceOutOfServer)
    (hstays : status = .ok ↔ view.StaysAtEnd [start] path) :
    Faithful view (some start) path
        ⟨status, (view.pathEnds [start] path).map (fun target => (target, none)) ++
          (view.pathExits 0 [start] path).map fun x => (x.1, some x.2)⟩ ↔
      StatusesAgree view start path := by
  have hnames := followed_names path [start] h
  have huncertain : status = .uncertainReferenceOutOfServer ↔ ¬view.StaysAtEnd [start] path := by
    rw [← hstays]
    obtain rfl | rfl := hstatus <;> simp
  constructor
  · intro hfaithful; refine ⟨h, fun hleaves => ?_⟩
    rw [← huncertain]
    exact hfaithful.uncertain.mpr ⟨start, rfl, hleaves⟩
  · rintro ⟨-, hagree⟩
    refine ⟨iff_of_true hstatus ⟨start, rfl, followed_hasTarget hne h⟩, ?_, ?_, ?_⟩
    · intro target; rw [mem_targets_none, mem_pathEnds path hnames]; simp
    · intro target k; rw [mem_targets_some, mem_pathExits path hnames]; simp
    · rw [huncertain]
      constructor
      · intro hend; exact ⟨start, rfl, followed_leaves hne h hend⟩
      · rintro ⟨start', hstart, hleaves⟩; cases hstart; exact hagree hleaves

/-- The translation of a path is right exactly if the path has no target or no status hides another
one. -/
theorem translation_faithful_iff (view : View L) (limits : PathLimits) (p : Points)
    (startingNode : Option NodeId) (path : List RelativePathElement)
    (hlimits : ∀ start, startingNode = some start → WithinLimits view limits start path) :
    Faithful view startingNode path
        (view.treatOneTranslateBrowsePath limits p startingNode path) ↔
      ∀ start, startingNode = some start → HasTarget view start path →
        StatusesAgree view start path := by
  by_cases htarget : ∃ start, startingNode = some start ∧ HasTarget view start path
  · obtain ⟨start, rfl, htarget⟩ := htarget
    have hne := hasTarget_ne_nil htarget
    have hknown := hasTarget_known htarget
    have hiff : (∀ s, some start = some s → HasTarget view s path → StatusesAgree view s path) ↔
        StatusesAgree view start path := by
      constructor
      · intro h; exact h start rfl htarget
      · rintro h s hs -; cases hs; exact h
    rw [hiff]
    by_cases hfollowed : view.Followed [start] path
    · obtain ⟨status, hstatus, hstays, hresult⟩ :=
        treatOneTranslateBrowsePath_of_followed p hne hknown (hlimits start rfl) hfollowed
      rw [hresult]
      exact faithful_of_followed_iff hne hfollowed hstatus hstays
    · obtain ⟨status, hok, huncertain, hresult⟩ :=
        treatOneTranslateBrowsePath_of_not_followed p hne hknown (hlimits start rfl) hfollowed
      rw [hresult]
      refine iff_of_false ?_ fun hagree => hfollowed hagree.1
      intro hfaithful; obtain h | h := hfaithful.succeeds.mpr ⟨start, rfl, htarget⟩
      · exact hok h
      · exact huncertain h
  · have hnone : ∀ start, startingNode = some start → ¬HasTarget view start path :=
      fun start hstart h => htarget ⟨start, hstart, h⟩
    obtain ⟨status, hok, huncertain, hresult⟩ :=
      treatOneTranslateBrowsePath_of_no_target p hlimits hnone
    rw [hresult]
    refine iff_of_true (faithful_of_failure hnone hok huncertain) ?_
    intro start hstart h; exact absurd h (hnone start hstart)

/-! The root organizes a node and refers to one of another server. -/

def nameX : QualifiedName := ⟨0, some [0x78], by simp⟩

def nameY : QualifiedName := ⟨0, some [0x79], by simp⟩

def rootNode : Node :=
  ⟨opcua 84, .object,
    [⟨opcua 35, false, ⟨opcua 85, .null, 0⟩⟩,
      ⟨opcua 35, false, ⟨opcua 86, .null, 1⟩⟩],
    opcua 0, -1, 0, false, .null⟩

def middleNode : Node :=
  ⟨opcua 85, .object, [⟨opcua 35, false, ⟨opcua 87, .null, 0⟩⟩],
    opcua 0, -1, 0, false, nameX.name⟩

def endNode : Node := ⟨opcua 87, .object, [], opcua 0, -1, 0, false, nameY.name⟩

def rootView : View Unit where
  nodes := [rootNode, middleNode, endNode]
  types := ⟨100, fun _ => none, true⟩
  readOnlyNodes := true
  browseNameNamespace := fun _ => 0
  displayName := fun _ => ()
  embeddedClass := fun _ => none

def tenMatches : PathLimits := ⟨⟨100, 1, Nat.succ_pos 99, Nat.one_pos⟩, 10, 10⟩

def twoElements : List RelativePathElement := [⟨none, false, false, nameX⟩, ⟨none, false, false, nameY⟩]

theorem rootView_fits (elt : RelativePathElement) (source : NodeId) :
    rootView.FitsOnPage tenMatches elt source := by
  intro node hnode; have hmem : node ∈ rootView.nodes := mem_of_findNode hnode
  refine .inl ?_
  simp only [rootView, mem_cons, not_mem_nil, or_false] at hmem
  obtain rfl | rfl | rfl := hmem <;> decide

theorem rootView_within : WithinLimits rootView tenMatches (opcua 84) twoElements := by
  refine ⟨⟨fun source _ => rootView_fits _ source, by decide, by decide, fun source _ =>
    rootView_fits _ source, by decide, by decide, trivial⟩, by decide⟩

/-- The path leaves the server at its first element, and the second one makes the status Good. -/
theorem second_element_hides_first :
    WithinLimits rootView tenMatches (opcua 84) twoElements ∧
      LeavesAt rootView (opcua 84) twoElements ⟨opcua 86, .null, 1⟩ 1 ∧
      (rootView.treatOneTranslateBrowsePath tenMatches (init 0) (some (opcua 84))
        twoElements).status = .ok ∧
      ¬Faithful rootView (some (opcua 84)) twoElements
        (rootView.treatOneTranslateBrowsePath tenMatches (init 0)
          (some (opcua 84)) twoElements) := by
  have hleaves : LeavesAt rootView (opcua 84) twoElements ⟨opcua 86, .null, 1⟩ 1 := by
    have hnames : ∀ elt ∈ twoElements, isQualifiedNamesEmpty elt.targetName = false := by decide
    have hmem : ((⟨opcua 86, .null, 1⟩, 1) : ExpandedNodeId × Nat) ∈
        rootView.pathExits 0 [opcua 84] twoElements := by decide
    obtain ⟨source, hsource, j, hj, h⟩ := (mem_pathExits twoElements hnames 0 _).mp hmem
    rw [mem_singleton.mp hsource, ← Nat.zero_add j, ← hj] at h
    exact h
  have hstatus : (rootView.treatOneTranslateBrowsePath tenMatches (init 0)
      (some (opcua 84)) twoElements).status = .ok := by decide
  refine ⟨rootView_within, hleaves, hstatus, ?_⟩
  intro hfaithful; have huncertain := hfaithful.uncertain.mpr ⟨_, rfl, _, _, hleaves⟩
  cases huncertain

theorem translation_faithful_iff_root :
    WithinLimits rootView tenMatches (opcua 84) twoElements ∧
      (Faithful rootView (some (opcua 84)) twoElements
          (rootView.treatOneTranslateBrowsePath tenMatches (init 0)
            (some (opcua 84)) twoElements) ↔
        ∀ start, some (opcua 84) = some start → HasTarget rootView start twoElements →
          StatusesAgree rootView start twoElements) := by
  refine ⟨rootView_within, translation_faithful_iff rootView tenMatches (init 0) _ _ ?_⟩
  intro start hstart; cases hstart
  exact rootView_within

end Browse
end S2OPC
