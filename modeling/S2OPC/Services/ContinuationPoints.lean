import S2OPC.Services.BrowsePages

/-!
# S2OPC.Services.ContinuationPoints

Requests one after the other. What a request does to the continuation points is told by its response
(`Moves`, `marks`). A continuation point is good for one use by the session it was given to
(`WorksOnce`), and following the continuation points gives all the references of a node that match
the filter (`browse_pagination`), whatever the other sessions do meanwhile.
-/

namespace S2OPC
namespace Browse

open AddressSpace List View Points

inductive Mark where
  | granted (session : Nat) (id : UInt64)
  | used (session : Nat) (id : UInt64)
  | closed (session : Nat)
  deriving DecidableEq

def Mark.session : Mark → Nat
  | .granted session _ => session
  | .used session _ => session
  | .closed session => session

variable {L : Type}

def grantMarks (session : Nat) (result : BrowseResult L) : List Mark :=
  result.continuationPoint.toList.map (.granted session)

def useMarks (session : Nat) (id : UInt64) (result : BrowseResult L) : List Mark :=
  if result.status = .badContinuationPointInvalid then [] else [.used session id]

def responseMarks : Request → Response L → List Mark
  | .browse session _ _ _, .ok results => results.flatMap (grantMarks session)
  | .browseNext session _ ids, .ok results =>
    (ids.zip results).flatMap fun x => useMarks session x.1 x.2 ++ grantMarks session x.2
  | .sessionClosed session, _ => [.closed session]
  | _, _ => []

def marks (history : List (Request × Response L)) : List Mark :=
  history.flatMap fun entry => responseMarks entry.1 entry.2

def Held (ms : List Mark) (session : Nat) (id : UInt64) : Prop :=
  ∃ before since, ms = before ++ .granted session id :: since ∧ ∀ m ∈ since, m.session ≠ session

/-- What a session uses was given to this session and not used since. -/
def WorksOnce (ms : List Mark) : Prop :=
  ∀ before session id after, ms = before ++ .used session id :: after → Held before session id

inductive Moves (session : Nat) : Points → List Mark → Points → Prop where
  | refl (p : Points) : Moves session p [] p
  | grant (p : Points) (seed : UInt64) (cp : ContinuationPoint) :
      Moves session p [.granted session cp.continuationPointId]
        ({ p with seed := seed }.setPoint session (some cp))
  | use (p : Points) (cp : ContinuationPoint) (h : p.point session = some cp) :
      Moves session p [.used session cp.continuationPointId] (p.setPoint session none)
  | create (p : Points) :
      Moves session p []
        { p with isValidSession := Function.update p.isValidSession session true }
  | close (p : Points) :
      Moves session p [.closed session]
        ({ p with isValidSession := Function.update p.isValidSession session false }.setPoint
          session none)
  | append {p p₁ p₂ : Points} {ms₁ ms₂ : List Mark} (h₁ : Moves session p ms₁ p₁)
      (h₂ : Moves session p₁ ms₂ p₂) : Moves session p (ms₁ ++ ms₂) p₂

variable {ms : List Mark} {result page : BrowseResult L} {node : Node}

variable {session s : Nat} {p p' : Points} {id : UInt64} {m : Mark} {rest : List ReferenceNode}

theorem Moves.others (h : Moves session p ms p')
    (hs : s ≠ session) : p'.point s = p.point s ∧ p'.isValidSession s = p.isValidSession s := by
  induction h with
  | refl => exact ⟨rfl, rfl⟩
  | grant => exact ⟨setPoint_other _ hs _, rfl⟩
  | use => exact ⟨setPoint_other _ hs _, rfl⟩
  | create => exact ⟨rfl, Function.update_of_ne hs ..⟩
  | close => exact ⟨setPoint_other _ hs _, Function.update_of_ne hs ..⟩
  | append _ _ ih₁ ih₂ => exact ⟨ih₂.1.trans ih₁.1, ih₂.2.trans ih₁.2⟩

structure Tracked (p : Points) (ms : List Mark) : Prop where
  worksOnce : WorksOnce ms
  held : ∀ s cp, p.point s = some cp → Held ms s cp.continuationPointId

theorem Held.concat (h : Held ms s id) (hm : m.session ≠ s) :
    Held (ms ++ [m]) s id := by
  obtain ⟨before, since, rfl, hsince⟩ := h
  refine ⟨before, since ++ [m], by simp, ?_⟩
  intro x hx; obtain hx | hx := mem_append.mp hx
  · exact hsince x hx
  · rw [mem_singleton.mp hx]; exact hm

theorem WorksOnce.concat (h : WorksOnce ms)
    (hm : ∀ s id, m = .used s id → Held ms s id) : WorksOnce (ms ++ [m]) := by
  intro before s id after heq
  induction after using List.reverseRecOn with
  | nil => obtain ⟨rfl, hlast⟩ := append_inj' heq rfl; exact hm s id (singleton_injective hlast)
  | append_singleton after x _ =>
    rw [← cons_append, ← append_assoc] at heq
    exact h before s id after (append_inj' heq rfl).1

theorem Tracked.concat (h : Tracked p ms) (m : Mark)
    (huse : ∀ s id, m = .used s id → Held ms s id)
    (hothers : ∀ s, s ≠ m.session → p'.point s = p.point s)
    (hown : ∀ cp, p'.point m.session = some cp → m = .granted m.session cp.continuationPointId) :
    Tracked p' (ms ++ [m]) := by
  refine ⟨h.worksOnce.concat huse, ?_⟩
  intro s cp hcp
  by_cases hs : s = m.session
  · subst hs; refine ⟨ms, [], ?_, by simp⟩; rw [← hown cp hcp]
  · rw [hothers s hs] at hcp; exact (h.held s cp hcp).concat (Ne.symm hs)

theorem Moves.tracked (h : Moves session p ms p')
    {before : List Mark} (ht : Tracked p before) : Tracked p' (before ++ ms) := by
  induction h generalizing before with
  | refl => rwa [append_nil]
  | grant p seed cp =>
    refine ht.concat _ ?_ (fun s hs => setPoint_other _ hs _) ?_
    · intro s id h; cases h
    · intro cp' hcp'
      have hsame : some cp = some cp' := (setPoint_self _ session (some cp)).symm.trans hcp'
      cases hsame; rfl
  | use p cp hcp =>
    refine ht.concat _ ?_ (fun s hs => setPoint_other _ hs _) ?_
    · intro s id h; cases h; exact ht.held session cp hcp
    · intro cp' hcp'; have hnone : none = some cp' := (setPoint_self _ session none).symm.trans hcp'
      cases hnone
  | create p => rw [append_nil]; exact ⟨ht.worksOnce, ht.held⟩
  | close p =>
    refine ht.concat _ ?_ (fun s hs => setPoint_other _ hs _) ?_
    · intro s id h; cases h
    · intro cp' hcp'; have hnone : none = some cp' := (setPoint_self _ session none).symm.trans hcp'
      cases hnone
  | append _ _ ih₁ ih₂ => rw [← append_assoc]; exact ih₂ (ih₁ ht)

variable {view : View L} {limits : Limits} {p p' : Points} {ctx : Context}

theorem Browsed.moves (h : Browsed view limits p ctx node p' result) :
    Moves ctx.session p (grantMarks ctx.session result) p' := by
  cases h with
  | last => exact .refl p
  | more nextIndex =>
    exact .grant p (freshContinuationPointId p.seed) ⟨freshContinuationPointId p.seed, nextIndex,
      ctx.maxReferencesPerNode, ctx.nodeId, ctx.filter⟩
  | full => exact .refl p

theorem Computed.moves (h : Computed view limits p ctx p' result) :
    Moves ctx.session p (grantMarks ctx.session result) p' := by
  cases h with
  | browsed node _ _ h => exact h.moves
  | error => exact .refl p

theorem Computed.status_ne (h : Computed view limits p ctx p' result) :
    result.status ≠ .badContinuationPointInvalid := by
  cases h with
  | browsed node _ _ h => cases h <;> exact fun h => by cases h
  | error status _ hpoint => exact hpoint

variable (view limits) in
theorem browseValues_moves (session maxTargetRef : Nat) (values : List BrowseValue) (p : Points)
    (autoReleaseCP : Bool) : Moves session p
      ((view.browseValues limits session maxTargetRef p autoReleaseCP values).2.flatMap
        (grantMarks session))
      (view.browseValues limits session maxTargetRef p autoReleaseCP values).1 := by
  induction values generalizing p autoReleaseCP with
  | nil => exact .refl p
  | cons value values ih =>
    simp only [browseValues, flatMap_cons]
    refine .append ?_ (ih _ false)
    unfold browseValue
    cases value.direction with
    | none => exact .refl p
    | some direction =>
      cases value.nodeId with
      | none => exact .refl p
      | some nodeId => exact (computeBrowseResult_computed view limits p ⟨1, session, _, _, _, _⟩).moves

variable (view limits) in
theorem browseNext_moves (p : Points) (session : Nat) (id : UInt64) :
    Moves session p
      (useMarks session id (view.browseNext limits p session id).2 ++
        grantMarks session (view.browseNext limits p session id).2)
      (view.browseNext limits p session id).1 := by
  unfold browseNext
  cases hget : p.getContinuationPoint session id with
  | none => exact .refl p
  | some cp =>
    obtain ⟨-, hpoint, rfl⟩ := getContinuationPoint_eq_some_iff.mp hget
    have hcomputed := computeBrowseResult_computed view limits (p.setPoint session none)
      ⟨cp.nextRefIndexOnNode, session, cp.maxTargetReferencesToReturn, cp.nodeId, cp.filter, false⟩
    simp only [releaseContinuationPoint_of_get hget]
    rw [useMarks, if_neg hcomputed.status_ne]
    exact .append (.use p cp hpoint) hcomputed.moves

variable (view limits) in
theorem browseNexts_moves (session : Nat) (releaseCP : Bool) (ids : List UInt64) (p : Points) :
    Moves session p
      ((ids.zip (view.browseNexts limits session releaseCP p ids).2).flatMap fun x =>
        useMarks session x.1 x.2 ++ grantMarks session x.2)
      (view.browseNexts limits session releaseCP p ids).1 := by
  induction ids generalizing p with
  | nil => exact .refl p
  | cons id ids ih =>
    simp only [browseNexts, zip_cons_cons, flatMap_cons]
    refine .append ?_ (ih _)
    cases releaseCP with
    | false => exact browseNext_moves view limits p session id
    | true =>
      simp only [if_true, browseRelease]
      cases hget : p.getContinuationPoint session id with
      | none => simp only [releaseContinuationPoint, hget]; exact .refl p
      | some cp =>
        obtain ⟨-, hpoint, rfl⟩ := getContinuationPoint_eq_some_iff.mp hget
        simp only [releaseContinuationPoint_of_get hget]
        exact .use p cp hpoint

variable (view limits) in
theorem treat_moves (p : Points) (req : Request) :
    Moves req.session p (responseMarks req (view.treat limits p req).2)
      (view.treat limits p req).1 := by
  cases req with
  | browse session browseView requested values =>
    unfold treat
    dsimp only
    split_ifs
    · exact .refl p
    · exact .refl p
    · exact .refl p
    · exact browseValues_moves view limits session _ values p true
  | browseNext session releaseCP ids =>
    unfold treat
    dsimp only
    split_ifs
    · exact .refl p
    · exact .refl p
    · exact browseNexts_moves view limits session releaseCP ids p
  | sessionCreated session =>
    unfold treat
    dsimp only
    split_ifs
    · exact .refl p
    · exact .create p
  | sessionClosed session => exact .close p

variable (view limits) in
theorem run_tracked (reqs : List Request) (p : Points) (before : List Mark)
    (h : Tracked p before) :
    Tracked (view.run limits p reqs).1 (before ++ marks (view.run limits p reqs).2) := by
  induction reqs generalizing p before with
  | nil => simpa [run, marks] using h
  | cons req reqs ih =>
    have hstep := (treat_moves view limits p req).tracked h
    have hrun := ih _ _ hstep
    rwa [append_assoc] at hrun

variable (view limits) in
theorem run_others (reqs : List Request) (p : Points)
    (hothers : ∀ req ∈ reqs, req.session ≠ s) :
    (view.run limits p reqs).1.point s = p.point s ∧
      (view.run limits p reqs).1.isValidSession s = p.isValidSession s := by
  induction reqs generalizing p with
  | nil => exact ⟨rfl, rfl⟩
  | cons req reqs ih =>
    have hstep := (treat_moves view limits p req).others (Ne.symm (hothers req mem_cons_self))
    have hrun := ih (view.treat limits p req).1 fun r hr => hothers r (mem_cons_of_mem _ hr)
    exact ⟨hrun.1.trans hstep.1, hrun.2.trans hstep.2⟩

variable (view limits) in
def View.followPages (session : Nat) (others : Nat → List Request) : Nat → Points →
    BrowseResult L → Option (List (BrowseResult L))
  | 0, _, page => if page.continuationPoint.isSome then none else some [page]
  | fuel + 1, p, page =>
    match page.continuationPoint with
    | none => some [page]
    | some id =>
      let (p, _) := view.run limits p (others fuel)
      match view.treat limits p (.browseNext session false [id]) with
      | (p, .ok [next]) => (followPages session others fuel p next).map (page :: ·)
      | _ => none

/-- What is left of a browse is kept under its continuation point. -/
structure Pending (p : Points) (ctx : Context) (node : Node) (id : UInt64)
    (rest : List ReferenceNode) : Prop where
  valid : p.isValidSession ctx.session = true
  point : ∃ nextIndex, 1 ≤ nextIndex ∧
    p.point ctx.session =
      some ⟨id, nextIndex, ctx.maxReferencesPerNode, ctx.nodeId, ctx.filter⟩ ∧
    node.references.drop (nextIndex - 1) = rest

theorem Pending.of_point {p₁ : Points}
    (h : Pending p ctx node id rest) (hpoint : p₁.point ctx.session = p.point ctx.session)
    (hvalid : p₁.isValidSession ctx.session = p.isValidSession ctx.session) :
    Pending p₁ ctx node id rest := by
  obtain ⟨hv, nextIndex, hnext, hp, hrest⟩ := h
  exact ⟨hvalid.trans hv, nextIndex, hnext, hpoint.trans hp, hrest⟩

variable (limits) in
structure Good (maxTargetRef : Nat) (page : BrowseResult L) : Prop where
  status : page.status = .ok
  server : page.references.length ≤ limits.targets
  client : 0 < maxTargetRef → page.references.length ≤ maxTargetRef

theorem Browsed.paged (h : Browsed view limits p ctx node p' page) (hok : page.status = .ok)
    (hstart : 1 ≤ ctx.startIndex) (hvalid : p.isValidSession ctx.session = true) :
    Good limits ctx.maxReferencesPerNode page ∧
    ∃ rest, page.references ++ rest.filterMap (view.found ctx.filter) =
        (node.references.drop (ctx.startIndex - 1)).filterMap (view.found ctx.filter) ∧
      (page.continuationPoint = none ∧ rest = [] ∨
        ∃ id, page.continuationPoint = some id ∧
          rest.length < (node.references.drop (ctx.startIndex - 1)).length ∧
          Pending p' ctx node id rest) := by
  have happend := pageFrom_append view limits ctx node
  have hpage : (view.pageFrom limits ctx node).1.length ≤ _ := Paging.length_page_le ..
  obtain ⟨hserver, hclient⟩ := minNbResultRefs_le limits ctx.maxReferencesPerNode
    node.references.length
  have hgood : ∀ cp, Good limits ctx.maxReferencesPerNode
      ⟨.ok, cp, (view.pageFrom limits ctx node).1⟩ :=
    fun _ => ⟨rfl, hpage.trans hserver, fun h => hpage.trans (hclient h)⟩
  cases h with
  | last hrest => exact ⟨hgood _, _, happend, .inl ⟨rfl, hrest⟩⟩
  | more nextIndex hnext hrest =>
    have hne : node.references.drop (ctx.startIndex - 1) ≠ [] := by
      intro hnil; refine hrest ?_
      rw [pageFrom, hnil, Paging.page_nil]
    have hpos : 0 < node.references.length := by rw [← length_pos_iff, length_drop] at hne; omega
    have hlt := Paging.length_rest_lt (view.found ctx.filter)
      (minNbResultRefs_pos limits ctx.maxReferencesPerNode hpos) hne
    obtain ⟨hindex, hdrop⟩ := hnext hstart
    exact ⟨hgood _, _, happend, .inr ⟨_, rfl, hlt, hvalid, nextIndex, hindex, setPoint_self ..,
      hdrop⟩⟩
  | full => cases hok

theorem Browsed.status_of_free (h : Browsed view limits p ctx node p' result) (hfree : Free p ctx) :
    result.status = .ok := by
  cases h with
  | last => rfl
  | more => rfl
  | full _ hbusy => exact absurd hfree hbusy

variable (view limits) in
theorem treat_browseNext_of_pending
    (h : Pending p ctx node id rest) (hfind : view.findNode ctx.nodeId = some node)
    (htype : ctx.filter.ValidType view) :
    ∃ p' next nextIndex, 1 ≤ nextIndex ∧ node.references.drop (nextIndex - 1) = rest ∧
      view.treat limits p (.browseNext ctx.session false [id]) = (p', .ok [next]) ∧
      next.status = .ok ∧
      Browsed view limits (p.setPoint ctx.session none)
        { ctx with startIndex := nextIndex, releasePrevContinuationPoint := false } node p' next := by
  obtain ⟨hvalid, nextIndex, hnext, hpoint, hrest⟩ := h
  have hget : p.getContinuationPoint ctx.session id = some _ :=
    getContinuationPoint_eq_some_iff.mpr ⟨hvalid, hpoint, rfl⟩
  have hcomputed := computeBrowseResult_computed view limits (p.setPoint ctx.session none)
    { ctx with startIndex := nextIndex, releasePrevContinuationPoint := false }
  have hbrowsed := hcomputed.browsed_of_valid hfind htype
  have hok := hbrowsed.status_of_free ⟨hvalid, .inr (setPoint_self ..)⟩
  refine ⟨_, _, nextIndex, hnext, hrest, ?_, hok, hbrowsed⟩
  have hroom : ¬limits.responses < 1 := Nat.not_lt.mpr limits.responses_pos
  simp [treat, browseNexts, browseNext, hget, hroom, releaseContinuationPoint_of_get hget]

variable (view limits) in
theorem followPages_of_browsed {others : Nat → List Request} (fuel : Nat) (ctx : Context)
    (p₀ p p₁ : Points) (page : BrowseResult L) (hbrowsed : Browsed view limits p₀ ctx node p page)
    (hok : page.status = .ok) (hstart : 1 ≤ ctx.startIndex)
    (hvalid : p₀.isValidSession ctx.session = true) (hfind : view.findNode ctx.nodeId = some node)
    (htype : ctx.filter.ValidType view) (hothers : ∀ k, ∀ req ∈ others k, req.session ≠ ctx.session)
    (hsame : page.continuationPoint ≠ none → p₁.point ctx.session = p.point ctx.session ∧
      p₁.isValidSession ctx.session = p.isValidSession ctx.session)
    (hfuel : (node.references.drop (ctx.startIndex - 1)).length ≤ fuel) :
    ∃ pages, view.followPages limits ctx.session others fuel p₁ page = some pages ∧
      pages.flatMap (·.references) =
        (node.references.drop (ctx.startIndex - 1)).filterMap (view.found ctx.filter) ∧
      ∀ pg ∈ pages, Good limits ctx.maxReferencesPerNode pg := by
  induction fuel generalizing ctx p₀ p p₁ page with
  | zero =>
    obtain ⟨hgood, rest, happend, ⟨hlast, rfl⟩ | ⟨id, _, hlt, _⟩⟩ :=
      hbrowsed.paged hok hstart hvalid
    · refine ⟨[page], ?_, ?_, ?_⟩
      · simp [followPages, hlast]
      · simpa using happend
      · simpa using hgood
    · omega
  | succ fuel ih =>
    obtain ⟨hgood, rest, happend, ⟨hlast, rfl⟩ | ⟨id, hid, hlt, hpending⟩⟩ :=
      hbrowsed.paged hok hstart hvalid
    · refine ⟨[page], ?_, ?_, ?_⟩
      · simp [followPages, hlast]
      · simpa using happend
      · simpa using hgood
    · obtain ⟨hpoint, hsession⟩ := hsame (by simp [hid])
      obtain ⟨hpoint₂, hsession₂⟩ := run_others view limits (others fuel) p₁ (hothers fuel)
      have hpending₂ := (hpending.of_point hpoint hsession).of_point hpoint₂ hsession₂
      obtain ⟨p', next, nextIndex, hnext, hdrop, htreat, hoknext, hnextBrowsed⟩ :=
        treat_browseNext_of_pending view limits hpending₂ hfind htype
      obtain ⟨pages, hpages, hrefs, hall⟩ := ih _ _ p' p' next hnextBrowsed hoknext hnext
        hpending₂.valid hfind htype hothers (fun _ => ⟨rfl, rfl⟩) (by
          dsimp only
          rw [hdrop]
          omega)
      dsimp only at hpages hrefs hall
      refine ⟨page :: pages, ?_, ?_, ?_⟩
      · simp [followPages, hid, htreat, hpages]
      · rw [flatMap_cons, hrefs, hdrop, happend]
      · intro pg hpg; obtain rfl | hpg := mem_cons.mp hpg
        · exact hgood
        · exact hall pg hpg

theorem Computed.sessions (h : Computed view limits p ctx p' result) :
    p'.isValidSession = p.isValidSession := by
  cases h with
  | browsed node _ _ h => cases h <;> rfl
  | error => rfl

theorem Computed.point_of_busy (h : Computed view limits p ctx p' result)
    (hauto : ctx.releasePrevContinuationPoint = false) (hpoint : p.point ctx.session ≠ none) :
    p'.point ctx.session = p.point ctx.session := by
  cases h with
  | browsed node _ _ h =>
    cases h with
    | last => rfl
    | more _ _ _ hfree =>
      obtain hauto' | hnone := hfree.2
      · rw [hauto] at hauto'; cases hauto'
      · exact absurd hnone hpoint
    | full => rfl
  | error => rfl

variable (view limits) in
theorem browseValue_computed (p : Points) (session maxTargetRef : Nat) (value : BrowseValue)
    (autoReleaseCP : Bool) :
    (view.browseValue limits p session maxTargetRef value autoReleaseCP).1 = p ∨
      ∃ nodeId filter, Computed view limits p
        ⟨1, session, maxTargetRef, nodeId, filter, autoReleaseCP⟩
        (view.browseValue limits p session maxTargetRef value autoReleaseCP).1
        (view.browseValue limits p session maxTargetRef value autoReleaseCP).2 := by
  unfold browseValue
  cases value.direction with
  | none => exact .inl rfl
  | some direction =>
    cases value.nodeId with
    | none => exact .inl rfl
    | some nodeId => exact .inr ⟨nodeId, _, computeBrowseResult_computed view limits p _⟩

variable (view limits) in
theorem browseValue_sessions (p : Points) (session maxTargetRef : Nat) (value : BrowseValue)
    (autoReleaseCP : Bool) :
    (view.browseValue limits p session maxTargetRef value autoReleaseCP).1.isValidSession =
      p.isValidSession := by
  obtain h | ⟨_, _, h⟩ := browseValue_computed view limits p session maxTargetRef value autoReleaseCP
  · rw [h]
  · exact h.sessions

variable (view limits) in
theorem browseValues_rest (session maxTargetRef : Nat) (values : List BrowseValue) (p : Points) :
    (view.browseValues limits session maxTargetRef p false values).1.isValidSession =
        p.isValidSession ∧
      (p.point session ≠ none →
        (view.browseValues limits session maxTargetRef p false values).1.point session =
          p.point session) := by
  induction values generalizing p with
  | nil => exact ⟨rfl, fun _ => rfl⟩
  | cons value values ih =>
    obtain ⟨hsessions, hpoint⟩ := ih (view.browseValue limits p session maxTargetRef value false).1
    refine ⟨hsessions.trans (browseValue_sessions view limits p _ _ value false), ?_⟩
    intro hne
    have hkept : (view.browseValue limits p session maxTargetRef value false).1.point session =
        p.point session := by
      obtain h | ⟨_, _, h⟩ := browseValue_computed view limits p session maxTargetRef value false
      · rw [h]
      · exact h.point_of_busy rfl hne
    exact (hpoint (hkept ▸ hne)).trans hkept

def Filter.browseValue (filter : Filter) (nodeId : NodeId) : BrowseValue :=
  ⟨some nodeId, some filter.direction, filter.referenceType, filter.includeSubtypes,
    filter.nodeClassMask, filter.resultMask⟩

variable (view limits) in
theorem browseValues_getElem (session maxTargetRef : Nat) (filter : Filter) (nodeId : NodeId)
    (values : List BrowseValue) (i : Nat) (p : Points) (autoReleaseCP : Bool)
    (h : values[i]? = some (filter.browseValue nodeId)) :
    ∃ p₁ p₂ page auto, Computed view limits p₁ ⟨1, session, maxTargetRef, nodeId, filter, auto⟩ p₂
        page ∧
      (view.browseValues limits session maxTargetRef p autoReleaseCP values).2[i]? = some page ∧
      p₁.isValidSession = p.isValidSession ∧
      (i = 0 → p₁ = p ∧ auto = autoReleaseCP) ∧
      (p₂.point session ≠ none →
        (view.browseValues limits session maxTargetRef p autoReleaseCP values).1.point session =
          p₂.point session) ∧
      (view.browseValues limits session maxTargetRef p autoReleaseCP values).1.isValidSession =
        p₂.isValidSession := by
  induction values generalizing i p autoReleaseCP with
  | nil => cases h
  | cons value values ih =>
    cases i with
    | zero =>
      rw [getElem?_cons_zero] at h
      cases h
      obtain ⟨hsessions, hpoint⟩ := browseValues_rest view limits session maxTargetRef values
        (view.browseValue limits p session maxTargetRef (filter.browseValue nodeId)
          autoReleaseCP).1
      exact ⟨p, _, _, autoReleaseCP, computeBrowseResult_computed view limits p _, rfl, rfl,
        fun _ => ⟨rfl, rfl⟩, hpoint, hsessions⟩
    | succ i =>
      rw [getElem?_cons_succ] at h
      obtain ⟨p₁, p₂, page, auto, hcomputed, hpage, hsessions, -, hpoint, hfinal⟩ := ih i
        (view.browseValue limits p session maxTargetRef value autoReleaseCP).1 false h
      refine ⟨p₁, p₂, page, auto, hcomputed, hpage, ?_, ?_, hpoint, hfinal⟩
      · exact hsessions.trans (browseValue_sessions view limits p _ _ value autoReleaseCP)
      · intro h; cases h

variable (view limits) in
/-- The pages are good and not too large, and together they hold what matches. -/
structure Exact (filter : Filter) (requested : UInt32) (node : Node)
    (pages : List (BrowseResult L)) : Prop where
  status : ∀ page ∈ pages, page.status = .ok
  server : ∀ page ∈ pages, page.references.length ≤ limits.targets
  client : ∀ page ∈ pages, 0 < requested → page.references.length ≤ requested.toNat
  references : pages.flatMap (·.references) = view.matching filter node

theorem Good.client_requested {requested : UInt32}
    (h : Good limits (browseTargetMax requested) page) (hpos : 0 < requested) :
    page.references.length ≤ requested.toNat := by
  have hnat : 0 < requested.toNat := UInt32.lt_iff_toNat_lt.mp hpos
  have hclient := h.client
  unfold browseTargetMax at hclient
  split_ifs at hclient <;> omega

theorem Browsed.point_ne (h : Browsed view limits p ctx node p' page)
    (hpage : page.continuationPoint ≠ none) : p'.point ctx.session ≠ none := by
  cases h with
  | last => exact absurd rfl hpage
  | more => rw [setPoint_self]; exact Option.some_ne_none _
  | full => exact absurd rfl hpage

theorem tracked_init (seed : UInt64) : Tracked (init seed) [] := by
  refine ⟨?_, ?_⟩
  · intro before session id after h
    cases before <;> cases h
  · intro s cp h; cases h

def folder : Node :=
  ⟨NodeId.opcua 85, .object,
    [⟨NodeId.opcua 35, false, ⟨NodeId.opcua 2253, .null, 0⟩⟩,
      ⟨NodeId.opcua 35, false, ⟨NodeId.opcua 2254, .null, 0⟩⟩],
    NodeId.opcua 0, -1, 0, false, .null⟩

def folderView : View Unit where
  nodes := [folder]
  types := ⟨100, fun _ => none, true⟩
  readOnlyNodes := true
  browseNameNamespace := fun _ => 0
  displayName := fun _ => ()
  embeddedClass := fun _ => none

def onePerPage : Limits := ⟨1, 1, Nat.one_pos, Nat.one_pos⟩

def forwardReferences : Filter := ⟨.forward, none, false, 0, 63⟩

def browseFolder : Request := .browse 1 none 0 [forwardReferences.browseValue (NodeId.opcua 85)]

def firstSession : Points := ⟨0, fun s => s == 1, fun _ => none⟩

end Browse
end S2OPC
