import MapAlgebra.Proofs.Graph.Invariant
import MapAlgebra.Proofs.Graph.Reclaim
import MapAlgebra.Proofs.Graph.Requests
import MapAlgebra.Proofs.Handles.Balance

namespace MapAlgebra.Graph

-- The nodes after the loops of a recording.
def Recorder.afterLoops (recorder : Recorder) : List Nat :=
  recorder.pairs.flatMap fun entry => entry.2.map Prod.snd

theorem Recorder.mem_afterLoops_of_pairsOf {recorder : Recorder} {loop : Nat}
    {pairs : List (Nat × Nat)} (h : recorder.pairsOf loop = some pairs) {id : Nat}
    (hid : id ∈ pairs.map Prod.snd) : id ∈ recorder.afterLoops := by
  obtain ⟨earlier, later, hsplit, _⟩ := List.lookup_eq_some_iff.mp h
  exact List.mem_flatMap.mpr ⟨(loop, pairs), hsplit ▸ List.mem_append_right _ List.mem_cons_self, hid⟩

theorem Recorder.mem_afterLoops_setPairs {recorder : Recorder} {loop id : Nat}
    {pairs : List (Nat × Nat)} (h : id ∈ (recorder.setPairs loop pairs).afterLoops) :
    id ∈ pairs.map Prod.snd ∨ id ∈ recorder.afterLoops := by
  obtain ⟨entry, hentry, hid⟩ := List.mem_flatMap.mp h
  obtain rfl | hentry := List.mem_cons.mp hentry
  · exact Or.inl hid
  · exact Or.inr (List.mem_flatMap.mpr ⟨entry, List.mem_of_mem_filter hentry, hid⟩)

theorem Recorder.afterLoops_record (recorder : Recorder) (node : Nat) :
    (recorder.record node).afterLoops = recorder.afterLoops := by
  unfold Recorder.record
  split <;> rfl

namespace State

-- Once a loop is put together nothing is recorded any more.
theorem recorder_create_closed {state : State} (h : state.recorder.phase = .assembled)
    (kind : NodeKind) (inputs : List Nat) (info : Meta) :
    (state.create kind inputs info).2.recorder = state.recorder := by
  simp only [recorder_create, Recorder.record, h]

-- The number of handles on a node, which is zero for one that is not there.
def refsOf (state : State) (node : Address) : Nat := (state.refCount node).getD 0

theorem refsOf_of_get? {state : State} {id : Nat} {node : Node}
    (h : state.nodes.get? id = some node) : state.refsOf id = node.refs := by
  rw [refsOf, refCount, h]
  rfl

theorem refsOf_of_none {state : State} {id : Nat} (h : state.nodes.get? id = none) :
    state.refsOf id = 0 := by
  rw [refsOf, refCount, h]
  rfl

-- A node with handles is there.
theorem refCount_of_refsOf {state : State} {id : Nat} (h : 0 < state.refsOf id) :
    state.refCount id = some (state.refsOf id) := by
  cases hcount : state.refCount id with
  | none =>
      rw [refsOf, hcount] at h
      exact absurd h (Nat.lt_irrefl 0)
  | some count => rw [refsOf, hcount, Option.getD_some]

theorem contains_of_refsOf {state : State} {id : Nat} (h : 0 < state.refsOf id) :
    state.nodes.contains id = true := by
  obtain ⟨node, hnode, _⟩ := Option.map_eq_some_iff.mp (refCount_of_refsOf h)
  exact (Table.contains_iff _ _).mpr ⟨node, hnode⟩

theorem refsOf_frees {before after : State} (h : Frees before after) (id : Nat) :
    after.refsOf id = before.refsOf id := by
  cases hafter : after.nodes.get? id with
  | some info =>
      obtain ⟨old, hold, hinfo⟩ := h.kept hafter
      rw [refsOf_of_get? hafter, refsOf_of_get? hold, hinfo]
  | none =>
      rw [refsOf_of_none hafter]
      cases hbefore : before.nodes.get? id with
      | none => rw [refsOf_of_none hbefore]
      | some old =>
          rw [refsOf_of_get? hbefore]
          by_contra hne
          obtain ⟨info, hinfo⟩ := h.stays hbefore (Nat.pos_of_ne_zero (Ne.symm hne))
          rw [hafter] at hinfo
          cases hinfo

-- Changing the number of handles on one node.
theorem refsOf_modify (state : State) (node : Address) (change : Nat → Nat) (id : Address) :
    State.refsOf { state with
        nodes := state.nodes.modify node fun info => { info with refs := change info.refs } } id =
      if id = node ∧ state.nodes.contains id = true then change (state.refsOf id)
      else state.refsOf id := by
  simp only [refsOf, refCount, Table.get?_modify, Table.contains]
  by_cases hid : id = node
  · subst hid
    obtain hnone | ⟨info, hsome⟩ := Option.eq_none_or_eq_some (state.nodes.get? id)
    · simp [hnone]
    · simp [hsome]
  · simp only [hid, false_and, if_false]

theorem refsOf_modify_of_refs (state : State) (node : Nat) {f : Node → Node}
    (hf : ∀ info, (f info).refs = info.refs) (id : Nat) :
    State.refsOf { state with nodes := state.nodes.modify node f } id = state.refsOf id := by
  simp only [refsOf, refCount, Table.get?_modify]
  split
  · rw [Option.map_map]
    congr 2
    exact funext hf
  · rfl

theorem refsOf_acquire {state : State} {node : Address} (id : Address)
    (hthere : state.nodes.contains node = true) :
    ((state.acquire node).refsOf id : Int) = state.refsOf id + Tally.one node id := by
  rw [acquire, refsOf_modify state node (· + 1), Tally.one]
  by_cases hid : id = node
  · rw [if_pos ⟨hid, hid ▸ hthere⟩, if_pos hid]
    push_cast
    rfl
  · rw [if_neg fun h => hid h.1, if_neg hid, add_zero]

theorem refsOf_acquire_le (state : State) (node id : Address) :
    ((state.acquire node).refsOf id : Int) ≤ state.refsOf id + Tally.one node id := by
  rw [acquire, refsOf_modify state node (· + 1), Tally.one]
  split
  · rename_i h
    rw [if_pos h.1]
    push_cast
    rfl
  · split <;> omega

theorem refsOf_release (state : State) (node id : Address) :
    (state.release node).refsOf id = state.refsOf id - if id = node then 1 else 0 := by
  unfold release
  split
  · rename_i info hinfo
    split
    · rw [refsOf_frees (frees_collect _ node), refsOf_modify state node (· - 1)]
      by_cases hid : id = node
      · rw [if_pos ⟨hid, (Table.contains_iff _ _).mpr ⟨info, hid ▸ hinfo⟩⟩, if_pos hid]
      · rw [if_neg fun h => hid h.1, if_neg hid, Nat.sub_zero]
    · rename_i hnone
      split
      · rename_i hid
        rw [hid, refsOf_of_get? hinfo]
        omega
      · rw [Nat.sub_zero]
  · rename_i hnone
    split
    · rename_i hid
      rw [hid, refsOf_of_none hnone]
    · rw [Nat.sub_zero]

theorem refsOf_create {state : State} (hnumbered : Numbered state) (kind : NodeKind)
    (inputs : List Nat) (info : Meta) (id : Nat) :
    (state.create kind inputs info).2.refsOf id = state.refsOf id := by
  simp only [refsOf, refCount, get?_create]
  by_cases hid : id = state.nextId
  · simp [hid, hnumbered.fresh]
  · simp only [if_neg hid, Option.map_map]
    rfl

theorem Numbered.shrunk {before after : State} (h : Numbered before)
    (hnodes : ∀ id, after.nodes.contains id = true → before.nodes.contains id = true)
    (hnext : after.nextId = before.nextId) : Numbered after where
  range hnode := by
    obtain ⟨old, hold⟩ := (Table.contains_iff _ _).mp
      (hnodes _ ((Table.contains_iff _ _).mpr ⟨_, hnode⟩))
    rw [hnext]
    exact h.range hold
  next := hnext ▸ h.next

theorem contains_modify (nodes : Table Node) (node id : Nat) (f : Node → Node) :
    (nodes.modify node f).contains id = nodes.contains id := by
  rw [Table.contains, Table.contains, Table.get?_modify]
  split
  · rw [Option.isSome_map]
  · rfl

end State

open State

-- A graph whose nodes are collected in time. Every user of a node is an edge or one of some holds,
-- and what is dead is spared.
structure Tended (state : State) (holds : List Nat) (spare : Nat → NodeKind → Prop) : Prop where
  numbered : Numbered state
  capped : Capped state holds
  swept : Swept spare state

namespace Tended

variable {state : State} {holds : List Nat} {spare : Nat → NodeKind → Prop}

theorem empty (limit : Nat) (directory : Option Directory) :
    Tended (.empty limit directory) [] fun _ _ => False where
  numbered := (Consistent.empty limit directory).counted.numbered
  capped := fun _ _ hnode => by cases hnode
  swept := fun _ _ hnode => by cases hnode

theorem mono (h : Tended state holds spare) {more : Nat → NodeKind → Prop}
    (hmore : ∀ id kind, spare id kind → more id kind) : Tended state holds more :=
  ⟨h.numbered, h.capped, h.swept.mono hmore⟩

theorem congr {other : State} (h : Tended state holds spare) (hnodes : other.nodes = state.nodes)
    (hnext : other.nextId = state.nextId) : Tended other holds spare where
  numbered := h.numbered.shrunk (fun _ hid => hnodes ▸ hid) hnext
  capped := by
    unfold Capped
    rw [hnodes]
    exact h.capped
  swept := by
    unfold Swept
    rw [hnodes]
    exact h.swept

-- A change of one node that leaves its inputs and its operation alone.
theorem modify {node : Nat} {f : Node → Node} {more : List Nat} {less : Nat → NodeKind → Prop}
    (h : Tended state holds spare) (hinputs : ∀ info, (f info).inputs = info.inputs)
    (husers : ∀ info edges, info.users ≤ edges + holds.count node →
      (f info).users ≤ edges + more.count node)
    (hholds : ∀ id, id ≠ node → holds.count id ≤ more.count id)
    (hspare : ∀ id kind, id ≠ node → spare id kind → less id kind)
    (hnode : ∀ info, state.nodes.get? node = some info → (f info).isDead = true →
      less node (f info).kind) :
    Tended { state with nodes := state.nodes.modify node f } more less :=
  ⟨h.numbered.shrunk (fun id hid => contains_modify state.nodes node id f ▸ hid) rfl,
    h.capped.modify hinputs husers hholds, h.swept.modify hspare hnode⟩

theorem collect {id : Nat}
    (h : Tended state holds fun other kind => spare other kind ∨ other = id) :
    Tended (state.collect id) holds spare where
  numbered := h.numbered.shrunk (fun _ => (frees_collect state id).contains)
    (by rw [(frees_collect state id).frame])
  capped := h.capped.collect id
  swept := swept_collect h.swept

-- A node with a handle is not dead.
theorem acquire (h : Tended state holds spare) (node : Address) :
    Tended (state.acquire node) holds fun id kind => spare id kind ∧ id ≠ node :=
  h.modify (fun _ => rfl) (fun _ _ => id) (fun _ _ => le_rfl) (fun _ _ hid hspare => ⟨hspare, hid⟩)
    fun info _ hdead => by
      simp only [Node.isDead, Bool.and_eq_true, decide_eq_true_eq] at hdead
      omega

theorem release (h : Tended state holds spare) (node : Address) :
    Tended (state.release node) holds spare := by
  obtain hsame | ⟨_, _, _, hrelease⟩ := state.release_cases node
  · rwa [hsame]
  · rw [hrelease]
    refine Tended.collect (h.modify (fun _ => rfl) (fun _ _ => id) (fun _ _ => le_rfl) ?_ ?_)
    · exact fun _ _ _ => Or.inl
    · exact fun _ _ _ => Or.inr rfl

theorem takeHold (h : Tended state holds spare) (node : Nat) :
    Tended { state with nodes := addUser state.nodes node } (node :: holds) spare := by
  refine h.modify (fun _ => rfl) (fun info edges hedges => ?_) (fun id hid => ?_)
    (fun _ _ _ => id) fun info hinfo hdead => ?_
  · rw [List.count_cons_self]
    show info.users + 1 ≤ _
    omega
  · rw [List.count_cons_of_ne hid.symm]
  · simp only [Node.isDead, Bool.and_eq_true, decide_eq_true_eq] at hdead
    omega

theorem endHold {node : Nat} (h : Tended state (node :: holds) spare) :
    Tended (state.endHold node) holds spare := by
  refine Tended.collect (h.modify (fun _ => rfl) (fun info edges hedges => ?_) (fun id hid => ?_)
    (fun _ _ _ => Or.inl) fun _ _ _ => Or.inr rfl)
  · rw [List.count_cons_self] at hedges
    show info.users - 1 ≤ _
    omega
  · rw [List.count_cons_of_ne hid.symm]

theorem endHolds (h : Tended state holds spare) :
    Tended (holds.foldl State.endHold state) [] spare := by
  induction holds generalizing state with
  | nil => exact h
  | cons node holds ih => exact ih h.endHold

theorem endLoop (h : Tended state state.recorder.held spare) : Tended state.endLoop [] spare :=
  (h.congr rfl rfl : Tended { state with recorder := .idle } _ _).endHolds

-- A new node is dead unless it is recorded, and its inputs are not.
theorem create (h : Tended state holds spare) (kind : NodeKind) (inputs : List Nat) (info : Meta) :
    Tended (state.create kind inputs info).2
      (List.replicate (if state.recorder.isRecording then 1 else 0) state.nextId ++ holds)
      fun id other => (spare id other ∧ id ∉ inputs) ∨ (id = state.nextId ∧ other = kind) where
  numbered := h.numbered.create kind inputs info
  capped := h.capped.create h.numbered kind inputs info
  swept := by
    intro id node hnode hdead
    rw [get?_create] at hnode
    split at hnode
    · rename_i hid
      cases hnode
      exact Or.inr ⟨hid, rfl⟩
    · obtain ⟨old, hold, rfl⟩ := Option.map_eq_some_iff.mp hnode
      simp only [Node.isDead, Bool.and_eq_true, decide_eq_true_eq] at hdead
      have hunread : id ∉ inputs := List.count_eq_zero.mp (by omega)
      have holdDead : old.isDead = true := by
        simp only [Node.isDead, Bool.and_eq_true, decide_eq_true_eq]
        omega
      have hspared : spare id old.kind := h.swept hold holdDead
      exact Or.inl ⟨hspared, hunread⟩

theorem perm {more : List Nat} (h : Tended state holds spare) (hperm : holds.Perm more) :
    Tended state more spare :=
  ⟨h.numbered, fun _ _ hnode => hperm.count_eq _ ▸ h.capped hnode, h.swept⟩

theorem recorded (h : Tended state state.recorder.held spare) (kind : NodeKind)
    (inputs : List Nat) (info : Meta) :
    Tended (state.create kind inputs info).2 (state.create kind inputs info).2.recorder.held
      fun id other => (spare id other ∧ id ∉ inputs) ∨ (id = state.nextId ∧ other = kind) :=
  (h.create kind inputs info).perm (Recorder.held_record _ _)

-- Until someone takes a handle on it, a new node is dead. A zero that stands in for an empty
-- branch is not: the new node reads it.
theorem construct (h : Tended state state.recorder.held spare) {next : State}
    {request : Construction} {node : Address} (hnext : state.construct request = .ok (node, next)) :
    Tended next next.recorder.held (fun id kind => spare id kind ∨ id = node) ∧
      next.nodes.contains node = true ∧ state.nextId ≤ node ∧ node < next.nextId ∧
      ∀ id, next.refsOf id = state.refsOf id := by
  obtain ⟨draft, hdraft, hplaced⟩ := bind_eq_ok.mp hnext
  rw [pure_eq_ok, place] at hplaced
  obtain ⟨standIn, middle, hzero, hmiddle, hread, hgrown, hrefs⟩ : ∃ standIn middle,
      state.createZero draft.standIn = (standIn, middle) ∧
        Tended middle middle.recorder.held
          (fun id kind => spare id kind ∨ (id = standIn ∧ draft.standIn ≠ none)) ∧
        (draft.standIn ≠ none → standIn ∈ request.inputs (· = Address.null) standIn) ∧
        state.nextId ≤ middle.nextId ∧ ∀ id, middle.refsOf id = state.refsOf id := by
    cases hsome : draft.standIn with
    | none =>
        exact ⟨_, _, rfl, h.mono fun _ _ => Or.inl, fun hne => absurd rfl hne, le_rfl, fun _ => rfl⟩
    | some info =>
        refine ⟨_, _, rfl, (h.recorded _ [] info).mono ?_, fun _ => ?_, Nat.le_succ _,
          refsOf_create h.numbered _ _ _⟩
        · exact fun id kind => Or.imp And.left fun hnew => ⟨hnew.1, Option.some_ne_none info⟩
        · exact draftOf_standIn_read hdraft (hsome ▸ Option.some_ne_none info) _
  rw [hzero] at hplaced
  simp only at hplaced
  obtain ⟨rfl, rfl⟩ := Prod.mk.inj hplaced
  refine ⟨(hmiddle.recorded _ _ _).mono ?_, contains_create (Or.inl rfl), hgrown,
    Nat.lt_succ_self _, fun id => ?_⟩
  · rintro id kind (⟨hspare | ⟨rfl, hsome⟩, hunread⟩ | ⟨rfl, _⟩)
    · exact Or.inl hspare
    · exact absurd (hread hsome) hunread
    · exact Or.inr rfl
  · exact (refsOf_create hmiddle.numbered _ _ _ id).trans (hrefs id)

-- What a new node cannot do without is older.
theorem required_old (h : Tended state holds spare) {next : State} {request : Construction}
    {node old : Address} (hnext : state.construct request = .ok (node, next))
    (hold : old ∈ request.required) (hnull : old ≠ Address.null) : old < state.nextId := by
  obtain ⟨draft, hdraft, _⟩ := bind_eq_ok.mp hnext
  obtain hempty | ⟨info, hinfo⟩ := draftOf_required hdraft _ hold
  · exact absurd (of_decide_eq_true hempty) hnull
  · obtain ⟨found, hfound, _⟩ := info_eq_ok hinfo
    exact (h.numbered.range hfound).2

-- The tails of a loop are dead until someone takes handles on them.
theorem createTails {loop : Address} {plan : LoopPlan} {tails pairs : List (Nat × Nat)}
    {next : State} (h : Tended state state.recorder.held spare)
    (hphase : state.recorder.phase = .assembled)
    (hnext : state.createTails loop plan tails = .ok (pairs, next)) :
    Tended next next.recorder.held (fun id kind => spare id kind ∨
        (id ∈ pairs.map Prod.snd ∧ ∃ index, kind = .loopTail index)) ∧
      (∀ tail ∈ pairs.map Prod.snd,
        next.nodes.contains tail = true ∧ state.nextId ≤ tail ∧ tail < next.nextId) ∧
      (∀ id, state.nodes.contains id = true → next.nodes.contains id = true) ∧
      next.recorder = state.recorder ∧ state.nextId ≤ next.nextId ∧
      ∀ id, next.refsOf id = state.refsOf id := by
  induction tails generalizing state spare pairs with
  | nil =>
      cases hnext
      exact ⟨h.mono fun _ _ => Or.inl, nofun, fun _ => id, rfl, le_rfl, fun _ => rfl⟩
  | cons tail tails ih =>
      obtain ⟨index, feed⟩ := tail
      rw [State.createTails] at hnext
      obtain ⟨_, _, hnext⟩ := bind_eq_ok.mp hnext
      obtain ⟨info, _, hnext⟩ := bind_eq_ok.mp hnext
      obtain ⟨before, _, hnext⟩ := bind_eq_ok.mp hnext
      obtain ⟨⟨rest, last⟩, hrest, hlast⟩ := bind_eq_ok.mp hnext
      cases hlast
      have hrecorder := recorder_create_closed hphase (.loopTail index) [loop] info
      obtain ⟨htended, htails, hkept, hlast, hgrown, hrefs⟩ :=
        ih (h.recorded (.loopTail index) [loop] info) (hrecorder ▸ hphase) hrest
      have hnextId : (state.create (.loopTail index) [loop] info).2.nextId =
        state.nextId + 1 := rfl
      rw [hnextId] at htails hgrown
      refine ⟨htended.mono ?_, ?_, fun id hid => hkept id (contains_create (Or.inr hid)),
        hlast.trans hrecorder, by omega,
        fun id => (hrefs id).trans (refsOf_create h.numbered _ _ _ id)⟩
      · rintro id kind ((⟨hspare, _⟩ | ⟨rfl, rfl⟩) | ⟨hid, hkind⟩)
        · exact Or.inl hspare
        · exact Or.inr ⟨List.mem_cons_self, index, rfl⟩
        · exact Or.inr ⟨List.mem_cons_of_mem _ hid, hkind⟩
      · intro id hid
        obtain rfl | hid := List.mem_cons.mp hid
        · exact ⟨hkept _ (contains_create (Or.inl rfl)), le_rfl, by omega⟩
        · obtain ⟨hthere, hle, hlt⟩ := htails id hid
          exact ⟨hthere, by omega, hlt⟩

-- What is there after a loop was put together.
structure Concluded (before after : State) (loop : Address) (pairs : List (Nat × Nat))
    (spare : Nat → NodeKind → Prop) : Prop where
  paired : after.recorder.pairsOf loop = some pairs
  afterLoops : ∀ id ∈ after.recorder.afterLoops,
    id ∈ pairs.map Prod.snd ∨ id ∈ before.recorder.afterLoops
  tended : Tended after after.recorder.held fun id kind =>
    spare id kind ∨ id = loop ∨ (id ∈ pairs.map Prod.snd ∧ ∃ index, kind = .loopTail index)
  loop_new : before.nextId ≤ loop
  loop_live : after.nodes.contains loop = true
  tails : ∀ tail ∈ pairs.map Prod.snd, after.nodes.contains tail = true ∧ loop < tail
  next : before.nextId ≤ after.nextId
  refs : ∀ id, after.refsOf id = before.refsOf id

theorem placeLoop {plan : LoopPlan} {loop : Address} {next : State}
    (h : Tended state state.recorder.held spare) (hphase : state.recorder.phase = .assembled)
    (hnext : state.placeLoop plan = .ok (loop, next)) :
    ∃ pairs, Concluded state next loop pairs spare := by
  obtain ⟨_, _, hnext⟩ := bind_eq_ok.mp hnext
  obtain ⟨guard, _, hnext⟩ := bind_eq_ok.mp hnext
  obtain ⟨⟨pairs, last⟩, htails, hlast⟩ := bind_eq_ok.mp hnext
  cases hlast
  have hrecorder := recorder_create_closed hphase (.loop plan) (plan.body ++ plan.externals)
    (guard.derived .b8 guard.shape)
  obtain ⟨htended, htails, hkept, hlast, hgrown, hrefs⟩ :=
    (h.recorded (.loop plan) _ (guard.derived .b8 guard.shape)).createTails
      (hrecorder ▸ hphase) htails
  have hnextId : (state.create (.loop plan) (plan.body ++ plan.externals)
      (guard.derived .b8 guard.shape)).2.nextId = state.nextId + 1 := rfl
  rw [hnextId] at htails hgrown
  refine ⟨pairs, ?_, fun id hid => ?_, ?_, le_rfl, hkept _ (contains_create (Or.inl rfl)),
    fun tail htail => ?_, Nat.le_of_succ_le hgrown,
    fun id => (hrefs id).trans (refsOf_create h.numbered _ _ _ id)⟩
  · rw [Recorder.pairsOf, Recorder.setPairs, List.lookup_cons_self]
  · rw [← hrecorder, ← hlast]
    exact Recorder.mem_afterLoops_setPairs hid
  · have hset : Tended { last with recorder := last.recorder.setPairs state.nextId pairs }
        last.recorder.held _ := htended.congr rfl rfl
    refine hset.mono ?_
    rintro id kind ((⟨hspare, _⟩ | ⟨rfl, _⟩) | htail)
    · exact Or.inl hspare
    · exact Or.inr (Or.inl rfl)
    · exact Or.inr (Or.inr htail)
  · obtain ⟨hthere, hle, _⟩ := htails tail htail
    exact ⟨hthere, hle⟩

-- A loop that cannot be put together changes no more than the phase of the recorder.
theorem assemble_error {problem : MapError} {next : State}
    (hnext : simulator.loopAssemble state = (.error problem, next)) :
    ∃ phase, next = { state with recorder := { state.recorder with phase } } := by
  rw [Changes.assemble_eq] at hnext
  cases hplan : state.recorder.plan state.nodes with
  | error problem =>
      rw [hplan] at hnext
      cases hnext
      exact ⟨_, rfl⟩
  | ok plan =>
      rw [hplan] at hnext
      simp only [atomically] at hnext
      split at hnext
      · cases hnext
      · cases hnext
        exact ⟨_, rfl⟩

theorem assemble {loop : Address} {next : State} (h : Tended state state.recorder.held spare)
    (hnext : simulator.loopAssemble state = (.ok loop, next)) :
    ∃ pairs, Concluded state next loop pairs spare := by
  rw [Changes.assemble_eq] at hnext
  cases hplan : state.recorder.plan state.nodes with
  | error problem =>
      rw [hplan] at hnext
      cases hnext
  | ok plan =>
      rw [hplan] at hnext
      have hclosed : Tended { state with recorder := state.recorder.close }
          state.recorder.held spare := h.congr rfl rfl
      obtain ⟨pairs, hconcluded⟩ := hclosed.placeLoop rfl (atomically_eq_ok hnext)
      exact ⟨pairs, hconcluded.paired, hconcluded.afterLoops, hconcluded.tended,
        hconcluded.loop_new, hconcluded.loop_live, hconcluded.tails, hconcluded.next,
        hconcluded.refs⟩

-- Nothing but what is spared is there above the holds and the handles: a node that no newer one
-- uses would be dead.
theorem none_above (h : Tended state holds spare) {bound : Nat} (hholds : ∀ id ∈ holds, id < bound)
    (hrefs : ∀ id, bound ≤ id → state.refsOf id = 0)
    (hspare : ∀ {id node}, bound ≤ id → state.nodes.get? id = some node → ¬spare id node.kind)
    {id : Nat} (hid : bound ≤ id) : state.nodes.get? id = none := by
  have hnone : ∀ gap id, bound ≤ id → state.nextId ≤ id + gap → state.nodes.get? id = none := by
    intro gap
    induction gap with
    | zero =>
        intro id _ hid
        refine Option.eq_none_iff_forall_ne_some.mpr fun node hnode => ?_
        exact absurd (h.numbered.range hnode).2 (Nat.not_lt.mpr hid)
    | succ gap ih =>
        intro id hbound hid
        refine Option.eq_none_iff_forall_ne_some.mpr fun node hnode => ?_
        have hunused : edgesAbove state.nodes id = 0 := by
          refine Table.total_eq_zero _ _ fun other info hother => if_neg fun hlt => ?_
          rw [ih other (by omega) (by omega)] at hother
          cases hother
        have hunheld : holds.count id = 0 :=
          List.count_eq_zero.mpr fun hheld => absurd (hholds id hheld) (Nat.not_lt.mpr hbound)
        have husers := h.capped hnode
        rw [hunused, hunheld] at husers
        have hdead : node.isDead = true := by
          have hzero := refsOf_of_get? hnode ▸ hrefs id hbound
          simp only [Node.isDead, Bool.and_eq_true, decide_eq_true_eq]
          omega
        exact hspare hbound hnode (h.swept hnode hdead)
  exact hnone state.nextId id hid (Nat.le_add_left _ _)

-- Nothing is left without holds and handles but what is spared.
theorem none_left (h : Tended state [] spare) (hrefs : ∀ id, state.refsOf id = 0)
    (hspare : ∀ {id node}, state.nodes.get? id = some node → ¬spare id node.kind) :
    state.liveNodes = 0 := by
  refine List.length_eq_zero_iff.mpr (List.eq_nil_iff_forall_not_mem.mpr fun entry hentry => ?_)
  have hthere := (Table.get?_eq_some_iff state.nodes entry.1 entry.2).mpr hentry
  rw [h.none_above nofun (fun id _ => hrefs id) (fun _ => hspare) (Nat.zero_le _)] at hthere
  cases hthere

end Tended

end MapAlgebra.Graph
