import SchedReplay.Proofs.Binding

/-! What a handover does to each entry of a well bound thread list. The entry of the machine that
takes a context is found with the new state, the entry that had it is found without, and what the
machine gave up is found unclaimed; every other entry is found as it was. -/
namespace SchedReplay

section Keyed

variable {key : α → Option κ} [DecidableEq κ] {entries : List α}

/-- Where no key repeats, the first entry with a key is the only one. -/
theorem find?_eq_some_of_nodup (nodup : (entries.filterMap key).Nodup) {a : α} {k : κ}
    (member : a ∈ entries) (has : key a = some k) :
    entries.find? (fun entry => key entry = some k) = some a := by
  induction entries with
  | nil => cases member
  | cons first rest ih =>
    rcases List.mem_cons.mp member with rfl | later
    · simp [has]
    · have mentioned : k ∈ rest.filterMap key := List.mem_filterMap.mpr ⟨a, later, has⟩
      have ne : key first ≠ some k := by
        intro same
        rw [List.filterMap_cons_some same] at nodup
        exact (List.nodup_cons.mp nodup).1 mentioned
      have tail : (rest.filterMap key).Nodup :=
        nodup.sublist ((List.sublist_cons_self first rest).filterMap key)
      rw [List.find?_cons_of_neg (by simpa using ne)]
      exact ih tail later

theorem eq_of_key_eq (nodup : (entries.filterMap key).Nodup) {a b : α} (one : a ∈ entries)
    (other : b ∈ entries) {k : κ} (has : key a = some k) (also : key b = some k) : a = b := by
  have first := find?_eq_some_of_nodup nodup one has
  have second := find?_eq_some_of_nodup nodup other also
  exact Option.some.inj (first.symm.trans second)

/-- Where no key repeats, changing the first entry with a key changes all entries with it. -/
theorem updateFirst_eq_map (nodup : (entries.filterMap key).Nodup) (k : κ) (f : α → α) :
    updateFirst (fun entry => key entry = some k) f entries =
      entries.map fun entry => if key entry = some k then f entry else entry := by
  induction entries with
  | nil => rfl
  | cons first rest ih =>
    rw [updateFirst, List.map_cons]
    by_cases same : key first = some k
    · rw [List.filterMap_cons_some same] at nodup
      have others : ∀ entry ∈ rest, key entry ≠ some k := fun entry member has =>
        (List.nodup_cons.mp nodup).1 (List.mem_filterMap.mpr ⟨entry, member, has⟩)
      have kept : (rest.map fun entry => if key entry = some k then f entry else entry) = rest :=
        (List.map_congr_left fun entry member => if_neg (others entry member)).trans
          (List.map_id' rest)
      simp [same, kept]
    · have tail : (rest.filterMap key).Nodup :=
        nodup.sublist ((List.sublist_cons_self first rest).filterMap key)
      simp [same, ih tail]

/-- Where contexts are only permuted, an entry is found again as what became of it. -/
theorem find?_holds_eq_map {threads next : List Thread}
    (permuted : (contextIds next).Perm (contextIds threads)) (nodup : (contextIds threads).Nodup)
    {context : ContextId} {change : Thread → Thread}
    (moves : ∀ thread ∈ threads, thread.contextId = some context →
      change thread ∈ next ∧ (change thread).contextId = some context) :
    next.find? (·.holds context) = (threads.find? (·.holds context)).map change := by
  cases before : threads.find? (·.holds context) with
  | none =>
    have unbound : context ∉ contextIds threads := by simpa [mem_contextIds] using before
    have still : context ∉ contextIds next := mt permuted.mem_iff.mp unbound
    simpa [mem_contextIds] using still
  | some thread =>
    obtain ⟨inside, holds⟩ := moves thread (List.mem_of_find?_eq_some before)
      (Thread.holds_iff.mp (List.find?_some before))
    exact find?_eq_some_of_nodup (permuted.nodup_iff.mpr nodup) inside holds

end Keyed

namespace Thread

/-- The entry, which gives up the context if it has it. -/
def without (context : ContextId) (thread : Thread) : Thread :=
  if thread.contextId = some context then thread.vacate else thread

@[simp] theorem machine_without (context : ContextId) (thread : Thread) :
    (thread.without context).machine = thread.machine := by
  unfold without
  split <;> rfl

theorem context_without (context : ContextId) (thread : Thread) :
    (thread.without context).context = thread.context.filter (·.id ≠ context) := by
  obtain ⟨_, _, held, _⟩ := thread
  cases held with
  | none => simp [without, contextId]
  | some held =>
    by_cases same : held.id = context <;> simp [without, contextId, Option.filter, same]

@[simp] theorem hold_without (context : ContextId) (state : Context) (thread : Thread) :
    (thread.without context).hold state = thread.hold state := by
  unfold without
  split <;> rfl

/-- The entry after `machine` has taken the context with the given state. -/
def handed (machine : MachineId) (state : Context) (thread : Thread) : Thread :=
  if thread.machine = some machine then thread.hold state else thread.without state.id

@[simp] theorem machine_handed (machine : MachineId) (state : Context) (thread : Thread) :
    (thread.handed machine state).machine = thread.machine := by
  unfold handed
  split <;> simp

/-- The context of an entry, with nobody who owns it. -/
def orphan (thread : Thread) : Thread := ⟨none, false, thread.context, none⟩

end Thread

/-- The threads after `machine` has taken the context with the given state. -/
def handedOver (threads : List Thread) (machine : MachineId) (state : Context) : List Thread :=
  let free := updateFirst (·.holds state.id) .vacate (withMachine machine threads)
  let displaced := (free.find? (·.isMachine machine)).bind (·.context)
  dropDead (updateFirst (·.isMachine machine) (.hold state) free ++
    displaced.toList.map .unclaimed)

section Outcome

variable {threads next : List Thread}

theorem heldContext?_isSome_iff {context : ContextId} :
    (heldContext? threads context).isSome ↔ context ∈ contextIds threads := by
  rw [mem_contextIds]
  constructor
  · intro found
    obtain ⟨held, found⟩ := Option.isSome_iff_exists.mp found
    obtain ⟨thread, first, _⟩ := Option.bind_eq_some_iff.mp found
    exact ⟨thread, List.mem_of_find?_eq_some first, by simpa using List.find?_some first⟩
  · rintro ⟨thread, member, holds⟩
    have found : (threads.find? (·.holds context)).isSome :=
      List.find?_isSome.mpr ⟨thread, member, by simpa using holds⟩
    obtain ⟨first, found⟩ := Option.isSome_iff_exists.mp found
    have holds := List.find?_some found
    rw [Thread.holds_iff, Thread.contextId, Option.map_eq_some_iff] at holds
    obtain ⟨held, here, _⟩ := holds
    simp [heldContext?, found, here]

theorem id_of_heldContext? {context : ContextId} {held : Context}
    (found : heldContext? threads context = some held) : held.id = context := by
  obtain ⟨thread, first, here⟩ := Option.bind_eq_some_iff.mp found
  have holds := List.find?_some first
  rw [Thread.holds_iff, Thread.contextId, here] at holds
  simpa using holds

theorem mem_of_heldContext? {context : ContextId} {held : Context}
    (found : heldContext? threads context = some held) : held.id ∈ contextIds threads := by
  rw [← heldContext?_isSome_iff, id_of_heldContext? found, found]
  rfl

theorem handOver_none_eq_ok_iff {machine : MachineId} {context : ContextId} :
    handOver threads machine context none = .ok next ↔
      ∃ held, heldContext? threads context = some held ∧
        next = handedOver threads machine held := by
  unfold handOver
  cases found : heldContext? threads context with
  | none => simp
  | some held => simp [handedOver, id_of_heldContext? found, eq_comm]

theorem handOver_some_eq_ok_iff {machine : MachineId} {state : Context} :
    handOver threads machine state.id (some state) = .ok next ↔
      state.id ∈ contextIds threads ∧ next = handedOver threads machine state := by
  rw [← heldContext?_isSome_iff]
  unfold handOver
  cases heldContext? threads state.id with
  | none => simp
  | some held => simp [handedOver, eq_comm]

end Outcome

section HandedOver

open scoped List

def entryFor (threads : List Thread) (machine : MachineId) : Thread :=
  (threads.find? (·.isMachine machine)).getD (.ofMachine machine)

/-- What a machine gives up when it takes a context: the context it had, unless that is the one. -/
def displaced? (threads : List Thread) (machine : MachineId) (context : ContextId) :
    Option Context :=
  (entryFor threads machine).context.filter (·.id ≠ context)

variable {threads : List Thread} {machine : MachineId} {state : Context}

@[simp] theorem machine_entryFor : (entryFor threads machine).machine = some machine := by
  unfold entryFor
  cases found : threads.find? (·.isMachine machine) with
  | none => rfl
  | some thread => simpa using List.find?_some found

theorem find?_isMachine_withMachine (other : MachineId) :
    (withMachine machine threads).find? (·.isMachine other) =
      if other = machine then some (entryFor threads machine)
      else threads.find? (·.isMachine other) := by
  have appended : (Thread.ofMachine machine).isMachine other = true ↔ other = machine := by
    simpa using eq_comm
  unfold withMachine entryFor
  split
  · next known =>
    split
    · next same =>
      subst same
      obtain ⟨thread, found⟩ := Option.isSome_iff_exists.mp
        (List.find?_isSome.mpr (List.any_eq_true.mp known))
      simp [found]
    · rfl
  · next fresh =>
    have missing : threads.find? (·.isMachine machine) = none := by simpa using fresh
    rw [List.find?_append]
    split
    · next same => subst same; simp [missing]
    · next ne => simp [List.find?_cons_of_neg (mt appended.mp ne)]

theorem find?_dropDead {p : Thread → Bool} (alive : ∀ thread, p thread → thread.isDead = false)
    (threads : List Thread) : (dropDead threads).find? p = threads.find? p := by
  unfold dropDead
  rw [List.find?_filter]
  congr 1
  funext thread
  cases found : p thread with
  | false => simp
  | true => simp [alive thread found]

theorem dropDead_eq_self (alive : ∀ thread ∈ threads, thread.isDead = false) :
    dropDead threads = threads := by
  apply List.filter_eq_self.mpr
  intro thread inside
  simp [alive thread inside]

theorem alive_of_isMachine {thread : Thread} (is : thread.isMachine machine = true) :
    thread.isDead = false := by
  rw [Thread.isMachine_iff] at is
  simp [Thread.isDead, is]

theorem alive_of_holds {context : ContextId} {thread : Thread}
    (holds : thread.holds context = true) : thread.isDead = false := by
  rw [Thread.holds_iff, Thread.contextId, Option.map_eq_some_iff] at holds
  obtain ⟨held, here, _⟩ := holds
  simp [Thread.isDead, here]

theorem free_eq (nodup : (contextIds threads).Nodup) (context : ContextId) :
    updateFirst (·.holds context) .vacate (withMachine machine threads) =
      (withMachine machine threads).map (Thread.without context) := by
  have contexts : (contextIds (withMachine machine threads)).Nodup := by
    rw [contextIds_withMachine]
    exact nodup
  exact updateFirst_eq_map contexts context _

theorem find?_isMachine_map_without (context : ContextId) (other : MachineId)
    (threads : List Thread) : (threads.map (Thread.without context)).find? (·.isMachine other) =
      (threads.find? (·.isMachine other)).map (Thread.without context) := by
  have same : (fun thread : Thread => thread.isMachine other) ∘ Thread.without context =
      fun thread : Thread => thread.isMachine other := by
    funext thread
    simp [Thread.isMachine]
  rw [List.find?_map, same]

/-- A handover as a change to each entry and one entry more at the end, dead ones dropped. -/
theorem handedOver_eq (bound : WellBound threads) : handedOver threads machine state =
    dropDead ((withMachine machine threads).map (Thread.handed machine state) ++
      (displaced? threads machine state.id).toList.map .unclaimed) := by
  have free := @free_eq threads machine bound.contexts state.id
  have machines : (machineIds ((withMachine machine threads).map
      (Thread.without state.id))).Nodup := by
    rw [← free, machineIds_updateFirst Thread.machine_vacate]
    exact nodup_machineIds_withMachine machine threads bound.machines
  have taken : updateFirst (·.isMachine machine) (.hold state)
      ((withMachine machine threads).map (Thread.without state.id)) =
        (withMachine machine threads).map (Thread.handed machine state) := by
    refine (updateFirst_eq_map machines machine _).trans ?_
    rw [List.map_map]
    apply List.map_congr_left
    intro thread _
    simp [Thread.handed]
  have displaced : (((withMachine machine threads).map (Thread.without state.id)).find?
      (·.isMachine machine)).bind (·.context) = displaced? threads machine state.id := by
    rw [find?_isMachine_map_without, find?_isMachine_withMachine, if_pos rfl]
    exact Thread.context_without _ _
  simp only [handedOver, free, taken, displaced]

theorem machineIds_handedOver :
    machineIds (handedOver threads machine state) = machineIds (withMachine machine threads) := by
  have unclaimed (contexts : List Context) : machineIds (contexts.map .unclaimed) = [] := by
    simp [machineIds]
  simp only [handedOver, machineIds_dropDead, machineIds_append, unclaimed, List.append_nil]
  rw [machineIds_updateFirst (Thread.machine_hold state),
    machineIds_updateFirst Thread.machine_vacate]

/-- No context is lost and none comes twice, whatever the list looks like. -/
theorem contextIds_handedOver (known : state.id ∈ contextIds threads) :
    (contextIds (handedOver threads machine state)).Perm (contextIds threads) := by
  let free := updateFirst (·.holds state.id) .vacate (withMachine machine threads)
  have freed : contextIds free = (contextIds threads).erase state.id := by
    rw [contextIds_vacate, contextIds_withMachine]
  have takes : machine ∈ machineIds free := by
    rw [machineIds_updateFirst Thread.machine_vacate]
    exact mem_machineIds_withMachine machine threads
  have unclaimed (displaced : Option Context) :
      contextIds (displaced.toList.map .unclaimed) = (displaced.map (·.id)).toList := by
    cases displaced <;> rfl
  calc contextIds (handedOver threads machine state)
      = contextIds (updateFirst (·.isMachine machine) (.hold state) free) ++
          ((free.find? (·.isMachine machine)).bind (·.contextId)).toList := by
        simp only [handedOver, contextIds_dropDead, contextIds_append, unclaimed, Option.map_bind]
        rfl
    _ ~ state.id :: contextIds free := contextIds_take state takes
    _ = state.id :: (contextIds threads).erase state.id := by rw [freed]
    _ ~ contextIds threads := (List.perm_cons_erase known).symm

theorem wellBound_handedOver (bound : WellBound threads) (known : state.id ∈ contextIds threads) :
    WellBound (handedOver threads machine state) where
  machines := by
    rw [machineIds_handedOver]
    exact nodup_machineIds_withMachine machine threads bound.machines
  contexts := (contextIds_handedOver known).nodup_iff.mpr bound.contexts
  alive := alive_dropDead

theorem mem_entryFor :
    entryFor threads machine ∈ withMachine machine threads := by
  have found := @find?_isMachine_withMachine threads machine machine
  rw [if_pos rfl] at found
  exact List.mem_of_find?_eq_some found

theorem mem_withMachine {thread : Thread} (member : thread ∈ threads) :
    thread ∈ withMachine machine threads := by
  unfold withMachine
  split
  · exact member
  · exact List.mem_append_left _ member

theorem find?_isMachine_handedOver (bound : WellBound threads) (other : MachineId) :
    (handedOver threads machine state).find? (·.isMachine other) =
      if other = machine then some ((entryFor threads machine).hold state)
      else (threads.find? (·.isMachine other)).map (Thread.without state.id) := by
  have unclaimed : ((displaced? threads machine state.id).toList.map Thread.unclaimed).find?
      (·.isMachine other) = none := by
    simp
  have same : (fun thread : Thread => thread.isMachine other) ∘ Thread.handed machine state =
      fun thread : Thread => thread.isMachine other := by
    funext thread
    simp [Thread.isMachine]
  rw [handedOver_eq bound, find?_dropDead fun _ => alive_of_isMachine, List.find?_append,
    unclaimed, Option.or_none, List.find?_map, same, find?_isMachine_withMachine]
  split
  · simp [Thread.handed]
  · next ne =>
    apply Option.map_congr
    intro thread found
    have is := List.find?_some found
    rw [Thread.isMachine_iff] at is
    simp [Thread.handed, is, ne]

theorem mem_handedOver (bound : WellBound threads) {context : ContextId} {thread : Thread}
    (member : thread ∈ (withMachine machine threads).map (Thread.handed machine state) ++
      (displaced? threads machine state.id).toList.map .unclaimed)
    (holds : thread.contextId = some context) : thread ∈ handedOver threads machine state := by
  rw [handedOver_eq bound]
  exact List.mem_filter.mpr ⟨member, by simp [alive_of_holds (Thread.holds_iff.mpr holds)]⟩

theorem entryFor_of_mem (bound : WellBound threads) {thread : Thread} (member : thread ∈ threads)
    (is : thread.machine = some machine) : entryFor threads machine = thread := by
  have first := find?_eq_some_of_nodup bound.machines member is
  simp [entryFor, Thread.isMachine, first]

/-- The context taken is found with its taker, what the taker gave up is found unclaimed, and
every other context where it was. -/
theorem find?_holds_handedOver (bound : WellBound threads) (known : state.id ∈ contextIds threads)
    (context : ContextId) :
    (handedOver threads machine state).find? (·.holds context) =
      if context = state.id then some ((entryFor threads machine).hold state)
      else (threads.find? (·.holds context)).map fun thread =>
        if thread.machine = some machine then thread.orphan else thread := by
  have permuted := @contextIds_handedOver threads machine state known
  split
  · next same =>
    have holds : ((entryFor threads machine).hold state).contextId = some context := by simp [same]
    refine find?_eq_some_of_nodup (permuted.nodup_iff.mpr bound.contexts)
      (mem_handedOver bound (List.mem_append_left _ ?_) holds) holds
    exact List.mem_map.mpr ⟨_, mem_entryFor, by simp [Thread.handed]⟩
  · next ne =>
    apply find?_holds_eq_map permuted bound.contexts
    intro thread member holds
    by_cases is : thread.machine = some machine
    · obtain ⟨held, here, id⟩ := Option.map_eq_some_iff.mp holds
      have gives : displaced? threads machine state.id = some held := by
        have other : held.id ≠ state.id := fun same => ne (id.symm.trans same)
        simp [displaced?, entryFor_of_mem bound member is, here, Option.filter, other]
      have orphaned : thread.orphan = .unclaimed held := by
        simp [Thread.orphan, here, Thread.unclaimed]
      have left : (Thread.unclaimed held).contextId = some context := by simpa using id
      rw [if_pos is, orphaned]
      exact ⟨mem_handedOver bound (List.mem_append_right _ (by simp [gives])) left, left⟩
    · rw [if_neg is]
      refine ⟨mem_handedOver bound (List.mem_append_left _ ?_) holds, holds⟩
      exact List.mem_map.mpr
        ⟨thread, mem_withMachine member, by simp [Thread.handed, is, Thread.without, holds, ne]⟩

end HandedOver

end SchedReplay
