import FastDdsSh.Reception

/-!
# The shared buffer and the data mutex

The data mutex is locked in `on_data_available` and released in `receive`, on another thread.  The
invariant says who will release it, and that its holder finds its own sample in the buffer.
-/

namespace FastDdsSh.Reception

open Transition

variable {C I M : Type} {r : Receiver} {fastddsToXtypes : C → Option M} {s s' : State C I M}

def ThreadPc.holdsData : ThreadPc M → Bool
  | .lookup | .convert | .unlock _ => true
  | _ => false

def ThreadPc.outcome : ThreadPc M → Option (Option M)
  | .unlock message | .dispatch message => some message
  | _ => none

theorem Receiver.entry_holdsData (r : Receiver) : (r.entry : ThreadPc M).holdsData = true := by
  cases r <;> rfl

theorem Receiver.entry_outcome (r : Receiver) : (r.entry : ThreadPc M).outcome = none := by
  cases r <;> rfl

/-- What a thread knows about its own sample. -/
structure Thread.Faithful (fastddsToXtypes : C → Option M) (th : Thread C I M) : Prop where
  info : th.info = th.sample.info
  reads : ∀ c ∈ th.reads, c = th.sample.data
  outcome : ∀ message, th.pc.outcome = some message → message = fastddsToXtypes th.sample.data

structure BufferInv (fastddsToXtypes : C → Option M) (s : State C I M) : Prop where
  listener : s.listener = .take ↔ s.dataMtx = some .listener
  thread : ∀ id, s.dataMtx = some (.thread id) ↔
    ∃ th : Thread C I M, s.threads[id]? = some th ∧ th.pc.holdsData = true
  destructor : s.destructor = .dispose ↔ s.dataMtx = some .destructor
  cleaner : s.dataMtx ≠ some .cleaner
  buffer : ∀ (id : Nat) (th : Thread C I M), s.threads[id]? = some th → th.pc.holdsData = true →
    s.dynamicData = some th.sample.data
  faithful : ∀ (id : Nat) (th : Thread C I M), s.threads[id]? = some th →
    th.Faithful fastddsToXtypes
  delivered : ∀ d ∈ s.delivered, ∃ th : Thread C I M, s.threads[d.1]? = some th ∧
    fastddsToXtypes th.sample.data = some d.2.1 ∧ d.2.2 = th.sample.info
  balance : s.locks = s.unlocks + if s.dataMtx.isSome then 1 else 0
  stray : s.strayUnlocks = 0

theorem bufferInv_initial : BufferInv fastddsToXtypes (.initial : State C I M) where
  listener := by simp [State.initial]
  thread := by simp [State.initial]
  destructor := by simp [State.initial]
  cleaner := by simp [State.initial]
  buffer := by simp [State.initial]
  faithful := by simp [State.initial]
  delivered := by simp [State.initial]
  balance := rfl
  stray := rfl

/-! ## What each kind of step leaves alone -/

structure SameData (s s' : State C I M) : Prop where
  dataMtx : s'.dataMtx = s.dataMtx
  listener : (s'.listener = .take) = (s.listener = .take)
  destructor : (s'.destructor = .dispose) = (s.destructor = .dispose)
  dynamicData : s'.dynamicData = s.dynamicData
  threads : s'.threads = s.threads
  delivered : s'.delivered = s.delivered
  locks : s'.locks = s.locks
  unlocks : s'.unlocks = s.unlocks
  strayUnlocks : s'.strayUnlocks = s.strayUnlocks

theorem BufferInv.of_sameData (h : BufferInv fastddsToXtypes s) (e : SameData s s') :
    BufferInv fastddsToXtypes s' where
  listener := by rw [e.listener, e.dataMtx]; exact h.listener
  thread := by rw [e.dataMtx, e.threads]; exact h.thread
  destructor := by rw [e.destructor, e.dataMtx]; exact h.destructor
  cleaner := by rw [e.dataMtx]; exact h.cleaner
  buffer := by rw [e.threads, e.dynamicData]; exact h.buffer
  faithful := by rw [e.threads]; exact h.faithful
  delivered := by rw [e.delivered, e.threads]; exact h.delivered
  balance := by rw [e.locks, e.unlocks, e.dataMtx]; exact h.balance
  stray := by rw [e.strayUnlocks]; exact h.stray

theorem stepCleaner_sameData (h : stepCleaner s = some s') : SameData s s' := by
  unfold stepCleaner at h
  split at h <;> (try split at h) <;> cases h <;> constructor <;> rfl

/-! ## Updates of one thread -/

@[simp] theorem setThread_dataMtx (id : Nat) (th : Thread C I M) :
    (s.setThread id th).dataMtx = s.dataMtx := rfl

theorem getElem?_setThread {id i : Nat} {th th' : Thread C I M} (hth : s.threads[id]? = some th) :
    (s.setThread id th').threads[i]? = if i = id then some th' else s.threads[i]? := by
  have hlt : id < s.threads.length := (List.getElem?_eq_some_iff.mp hth).1
  rw [State.setThread, List.getElem?_set]
  by_cases hi : i = id
  · subst hi
    simp [hlt]
  · rw [if_neg (Ne.symm hi), if_neg hi]

theorem BufferInv.dataMtx_of_holds {id : Nat} {th : Thread C I M}
    (h : BufferInv fastddsToXtypes s) (hth : s.threads[id]? = some th)
    (hholds : th.pc.holdsData = true) : s.dataMtx = some (.thread id) :=
  (h.thread id).mpr ⟨th, hth, hholds⟩

theorem BufferInv.delivered_setThread {id : Nat} {th th' : Thread C I M}
    (h : BufferInv fastddsToXtypes s) (hth : s.threads[id]? = some th)
    (hsample : th'.sample = th.sample) :
    ∀ d ∈ s.delivered, ∃ u : Thread C I M, (s.setThread id th').threads[d.1]? = some u ∧
      fastddsToXtypes u.sample.data = some d.2.1 ∧ d.2.2 = u.sample.info := by
  intro d hd
  obtain ⟨u, hu, hm, hi⟩ := h.delivered d hd
  rw [getElem?_setThread hth]
  by_cases hid : d.1 = id
  · rw [hid, hth] at hu
    cases hu
    exact ⟨th', by rw [if_pos hid], by rw [hsample]; exact hm, by rw [hsample]; exact hi⟩
  · exact ⟨u, by rw [if_neg hid]; exact hu, hm, hi⟩

theorem BufferInv.faithful_setThread {id : Nat} {th th' : Thread C I M}
    (h : BufferInv fastddsToXtypes s) (hth : s.threads[id]? = some th)
    (hf : th'.Faithful fastddsToXtypes) (i : Nat) (u : Thread C I M)
    (hu : (s.setThread id th').threads[i]? = some u) : u.Faithful fastddsToXtypes := by
  rw [getElem?_setThread hth] at hu
  split at hu
  · cases hu
    exact hf
  · exact h.faithful i u hu

/-- A thread that keeps or lacks the data mutex moves on. -/
theorem BufferInv.setThread {id : Nat} {th : Thread C I M} (h : BufferInv fastddsToXtypes s)
    (th' : Thread C I M) (hth : s.threads[id]? = some th) (hsample : th'.sample = th.sample)
    (hholds : th'.pc.holdsData = th.pc.holdsData) (hf : th'.Faithful fastddsToXtypes) :
    BufferInv fastddsToXtypes (s.setThread id th') where
  listener := h.listener
  thread i := by
    rw [getElem?_setThread hth]
    by_cases hi : i = id
    · subst hi
      have hiff := h.thread i
      simp only [hth, Option.some.injEq, exists_eq_left'] at hiff
      simpa [hholds] using hiff
    · simpa [hi] using h.thread i
  destructor := h.destructor
  cleaner := h.cleaner
  buffer i u hu hu' := by
    rw [getElem?_setThread hth] at hu
    split at hu
    · cases hu
      rw [hsample]
      exact h.buffer id th hth (hholds ▸ hu')
    · exact h.buffer i u hu hu'
  faithful := h.faithful_setThread hth hf
  delivered := h.delivered_setThread hth hsample
  balance := h.balance
  stray := h.stray

/-! ## Locking and releasing the data mutex -/

theorem unlockData_of_held {a : Activity} (h : s.dataMtx = some a) :
    s.unlockData a = { s with dataMtx := none, unlocks := s.unlocks + 1 } := by
  rw [State.unlockData, if_pos h]

theorem BufferInv.locks_of_held {a : Activity} (h : BufferInv fastddsToXtypes s)
    (ha : s.dataMtx = some a) : s.locks = s.unlocks + 1 := by
  have hb := h.balance
  simpa [ha] using hb

/-- The thread that holds the data mutex releases it and moves on. -/
theorem BufferInv.release {id : Nat} {th th' : Thread C I M} (h : BufferInv fastddsToXtypes s)
    (hth : s.threads[id]? = some th) (hheld : th.pc.holdsData = true)
    (hsample : th'.sample = th.sample)
    (hdone : th'.pc.holdsData = false) (hf : th'.Faithful fastddsToXtypes) :
    BufferInv fastddsToXtypes ((s.setThread id th').unlockData (.thread id)) := by
  have hmtx := h.dataMtx_of_holds hth hheld
  rw [unlockData_of_held (s := s.setThread id th') hmtx]
  -- the released mutex was this thread's, so nobody else is at a point that holds it
  have hnobody : ∀ (i : Nat) (u : Thread C I M),
      (s.setThread id th').threads[i]? = some u → u.pc.holdsData = false := by
    intro i u hu
    rw [getElem?_setThread hth] at hu
    split at hu
    · cases hu
      exact hdone
    · rename_i hne
      by_contra hcon
      have hother := h.dataMtx_of_holds hu (by simpa using hcon)
      rw [hmtx] at hother
      exact hne (by simpa using hother.symm)
  exact
    { listener := by
        have := h.listener
        simpa [State.setThread, hmtx] using this
      thread := by
        intro i
        refine ⟨fun hi => by simp at hi, ?_⟩
        rintro ⟨u, hu, hholds⟩
        rw [hnobody i u hu] at hholds
        cases hholds
      destructor := by
        have := h.destructor
        simpa [State.setThread, hmtx] using this
      cleaner := by simp
      buffer := by
        intro i u hu hholds
        rw [hnobody i u hu] at hholds
        cases hholds
      faithful := h.faithful_setThread hth hf
      delivered := h.delivered_setThread hth hsample
      balance := by simpa [State.setThread] using h.locks_of_held hmtx
      stray := h.stray }

/-- No thread is at a program point that holds the data mutex while somebody else holds it. -/
theorem BufferInv.nobody {a : Activity} (h : BufferInv fastddsToXtypes s)
    (ha : s.dataMtx = some a) (hne : ∀ id, a ≠ .thread id) (i : Nat) (u : Thread C I M)
    (hu : s.threads[i]? = some u) : u.pc.holdsData = false := by
  by_contra hcon
  have hother := h.dataMtx_of_holds hu (by simpa using hcon)
  rw [ha] at hother
  exact hne i (by simpa using hother)

/-- With no thread at a point that holds the data mutex, the facts about it are vacuous. -/
theorem BufferInv.of_nobody {t : State C I M} (h : BufferInv fastddsToXtypes s)
    (hthreads : t.threads = s.threads) (hdelivered : t.delivered = s.delivered)
    (hnobody : ∀ (i : Nat) (u : Thread C I M), s.threads[i]? = some u → u.pc.holdsData = false)
    (hmtx : ∀ id, t.dataMtx ≠ some (.thread id)) (hcleaner : t.dataMtx ≠ some .cleaner)
    (hlistener : t.listener = .take ↔ t.dataMtx = some .listener)
    (hdestructor : t.destructor = .dispose ↔ t.dataMtx = some .destructor)
    (hbalance : t.locks = t.unlocks + if t.dataMtx.isSome then 1 else 0)
    (hstray : t.strayUnlocks = 0) : BufferInv fastddsToXtypes t where
  listener := hlistener
  thread i := by
    refine ⟨fun hi => absurd hi (hmtx i), ?_⟩
    rintro ⟨u, hu, hholds⟩
    rw [hthreads] at hu
    rw [hnobody i u hu] at hholds
    cases hholds
  destructor := hdestructor
  cleaner := hcleaner
  buffer i u hu hholds := by
    rw [hthreads] at hu
    rw [hnobody i u hu] at hholds
    cases hholds
  faithful := by rw [hthreads]; exact h.faithful
  delivered := by rw [hdelivered, hthreads]; exact h.delivered
  balance := hbalance
  stray := hstray

/-! ## Each kind of step keeps the invariant -/

theorem BufferInv.nobody_of_free (h : BufferInv fastddsToXtypes s) (hfree : s.dataMtx = none)
    (i : Nat) (u : Thread C I M) (hu : s.threads[i]? = some u) : u.pc.holdsData = false := by
  by_contra hcon
  have hother := h.dataMtx_of_holds hu (by simpa using hcon)
  rw [hfree] at hother
  cases hother

/-- `on_data_available` releases the data mutex itself. -/
theorem BufferInv.listener_unlock (h : BufferInv fastddsToXtypes s) (hl : s.listener = .take)
    (d : Option C) :
    BufferInv fastddsToXtypes
      { ({ s with dynamicData := d } : State C I M).unlockData .listener with
        listener := .leave } := by
  have hmtx := h.listener.mp hl
  rw [unlockData_of_held (s := { s with dynamicData := d }) hmtx]
  refine h.of_nobody rfl rfl (h.nobody hmtx (by simp)) (by simp) (by simp) (by simp) ?_ ?_ h.stray
  · have := h.destructor
    simpa [hmtx] using this
  · simpa using h.locks_of_held hmtx

/-- `on_data_available` starts the thread and leaves it the locked data mutex. -/
theorem BufferInv.listener_spawn (h : BufferInv fastddsToXtypes s) (hl : s.listener = .take)
    (t : Taken C I) (rs : List Nat) :
    BufferInv fastddsToXtypes
      { s with
        dynamicData := some t.data
        threads := s.threads ++ [⟨r.entry, t, t.info, []⟩]
        receptionThreads := rs
        dataMtx := s.dataMtx.map fun _ => .thread s.threads.length
        listener := .leave } := by
  have hmtx := h.listener.mp hl
  have hnobody := h.nobody hmtx (by simp)
  exact
    { listener := by simp [hmtx]
      thread := by
        intro i
        simp only [hmtx, Option.map_some, Option.some.injEq, Activity.thread.injEq]
        constructor
        · rintro rfl
          exact ⟨⟨r.entry, t, t.info, []⟩, by simp, r.entry_holdsData⟩
        · rintro ⟨u, hu, hholds⟩
          rcases getElem?_concat_cases hu with hold | ⟨hi, -⟩
          · rw [hnobody i u hold] at hholds
            cases hholds
          · exact hi.symm
      destructor := by
        have := h.destructor
        simpa [hmtx] using this
      cleaner := by simp [hmtx]
      buffer := by
        intro i u hu hholds
        rcases getElem?_concat_cases hu with hold | ⟨-, rfl⟩
        · rw [hnobody i u hold] at hholds
          cases hholds
        · rfl
      faithful := by
        intro i u hu
        rcases getElem?_concat_cases hu with hold | ⟨-, rfl⟩
        · exact h.faithful i u hold
        · exact ⟨rfl, by simp, by simp [Receiver.entry_outcome]⟩
      delivered := by
        intro d hd
        obtain ⟨u, hu, hrest⟩ := h.delivered d hd
        exact ⟨u, by rw [List.getElem?_append_left (lt_length_of_getElem? hu)]; exact hu, hrest⟩
      balance := by simpa [hmtx] using h.locks_of_held hmtx
      stray := h.stray }

theorem stepListener_bufferInv {result : Option (Taken C I)} (h : BufferInv fastddsToXtypes s)
    (hstep : stepListener r s result = some s') : BufferInv fastddsToXtypes s' := by
  unfold stepListener at hstep
  split at hstep
  · rename_i hl
    split at hstep <;> cases hstep
    exact h.of_sameData ⟨rfl, by simp [hl], rfl, rfl, rfl, rfl, rfl, rfl, rfl⟩
  · rename_i hl
    split at hstep <;> cases hstep
    rename_i hfree
    refine h.of_nobody rfl rfl (h.nobody_of_free hfree) ?_ ?_ ?_ ?_ ?_ h.stray
    · simp [State.lockData]
    · simp [State.lockData]
    · simp [State.lockData]
    · have := h.destructor
      simpa [State.lockData, hfree] using this
    · have := h.balance
      simpa [State.lockData, hfree] using this
  · rename_i hl
    split at hstep <;> cases hstep
    · exact h.listener_unlock hl s.dynamicData
    · cases result with
      | none => exact h.listener_unlock hl s.dynamicData
      | some t =>
        simp only [takeSample]
        split
        · exact h.listener_spawn hl t _
        · exact h.listener_unlock hl (some t.data)
  · rename_i hl
    cases hstep
    exact h.of_sameData ⟨rfl, by simp [hl], rfl, rfl, rfl, rfl, rfl, rfl, rfl⟩

theorem stepRead_bufferInv {id : Nat} (h : BufferInv fastddsToXtypes s)
    (hstep : stepRead s id = some s') : BufferInv fastddsToXtypes s' := by
  unfold stepRead at hstep
  split at hstep
  · rename_i th d hth hd
    split at hstep <;> cases hstep
    rename_i hpc
    have hown : d = th.sample.data := by
      have := h.buffer id th hth (by rw [hpc]; rfl)
      rw [hd] at this
      simpa using this
    have hf := h.faithful id th hth
    refine h.setThread _ hth rfl rfl ⟨hf.info, ?_, hf.outcome⟩
    intro c hc
    rcases List.mem_cons.mp hc with rfl | hc
    · exact hown
    · exact hf.reads c hc
  · cases hstep

/-- A callback gets the converted sample of its own thread. -/
theorem BufferInv.deliver {id : Nat} {message : M} (h : BufferInv fastddsToXtypes s)
    (th : Thread C I M) (hth : s.threads[id]? = some th)
    (hmessage : fastddsToXtypes th.sample.data = some message) :
    BufferInv fastddsToXtypes { s with delivered := s.delivered ++ [(id, message, th.info)] } where
  listener := h.listener
  thread := h.thread
  destructor := h.destructor
  cleaner := h.cleaner
  buffer := h.buffer
  faithful := h.faithful
  delivered d hd := by
    rcases List.mem_append.mp hd with hd | hd
    · exact h.delivered d hd
    · obtain rfl := List.mem_singleton.mp hd
      exact ⟨th, hth, hmessage, (h.faithful id th hth).info⟩
  balance := h.balance
  stray := h.stray

theorem stepThread_bufferInv {id : Nat} {branch : Bool} (h : BufferInv fastddsToXtypes s)
    (hstep : stepThread r fastddsToXtypes s id branch = some s') :
    BufferInv fastddsToXtypes s' := by
  unfold stepThread at hstep
  split at hstep
  · cases hstep
  rename_i th hth
  have hf := h.faithful id th hth
  split at hstep
  · rename_i hpc
    split at hstep <;> cases hstep
    · exact h.setThread _ hth rfl (by rw [hpc]; rfl) ⟨hf.info, hf.reads, by simp [ThreadPc.outcome]⟩
    · exact h.release hth (by rw [hpc]; rfl) rfl rfl ⟨hf.info, hf.reads, by simp [ThreadPc.outcome]⟩
  · rename_i hpc
    split at hstep
    · cases hstep
    rename_i d hd
    cases hstep
    have hown : d = th.sample.data := by
      have := h.buffer id th hth (by rw [hpc]; rfl)
      rw [hd] at this
      simpa using this
    subst hown
    refine (h.setThread { th with
      pc := .unlock (fastddsToXtypes th.sample.data), reads := th.sample.data :: th.reads }
      hth rfl (by rw [hpc]; rfl) ⟨hf.info, ?_, ?_⟩).of_sameData
        ⟨rfl, rfl, rfl, rfl, rfl, rfl, rfl, rfl, rfl⟩
    · intro c hc
      rcases List.mem_cons.mp hc with rfl | hc
      · rfl
      · exact hf.reads c hc
    · simp [ThreadPc.outcome]
  · rename_i message hpc
    cases hstep
    have hm := hf.outcome message (by rw [hpc]; rfl)
    refine h.release hth (by rw [hpc]; rfl) rfl rfl ⟨hf.info, hf.reads, ?_⟩
    simpa [ThreadPc.outcome] using hm
  · rename_i hpc
    cases hstep
    exact h.setThread _ hth rfl (by rw [hpc]; rfl) ⟨hf.info, hf.reads, by simp [ThreadPc.outcome]⟩
  · rename_i message hpc
    have hm := hf.outcome (some message) (by rw [hpc]; rfl)
    have hnext := h.setThread { th with pc := .lockCleaner } hth rfl
      (by rw [hpc]; rfl) ⟨hf.info, hf.reads, by simp [ThreadPc.outcome]⟩
    split at hstep <;> cases hstep
    · exact hnext.deliver { th with pc := .lockCleaner }
        (by rw [getElem?_setThread hth, if_pos rfl]) hm.symm
    · exact hnext
  · rename_i hpc
    split at hstep <;> cases hstep
    refine BufferInv.of_sameData (h.setThread { th with pc := .notify } hth rfl
      (by rw [hpc]; rfl) ⟨hf.info, hf.reads, by simp [ThreadPc.outcome]⟩) ?_
    exact ⟨rfl, rfl, rfl, rfl, rfl, rfl, rfl, rfl, rfl⟩
  · rename_i hpc
    cases hstep
    refine BufferInv.of_sameData (h.setThread { th with pc := .leave } hth rfl
      (by rw [hpc]; rfl) ⟨hf.info, hf.reads, by simp [ThreadPc.outcome]⟩) ?_
    exact ⟨rfl, rfl, rfl, rfl, rfl, rfl, rfl, rfl, rfl⟩
  · rename_i hpc
    cases hstep
    refine BufferInv.of_sameData (h.setThread { th with pc := .ended } hth rfl
      (by rw [hpc]; rfl) ⟨hf.info, hf.reads, by simp [ThreadPc.outcome]⟩) ?_
    exact ⟨rfl, rfl, rfl, rfl, rfl, rfl, rfl, rfl, rfl⟩
  · cases hstep

theorem stepDestructor_bufferInv (h : BufferInv fastddsToXtypes s)
    (hstep : stepDestructor s = some s') : BufferInv fastddsToXtypes s' := by
  unfold stepDestructor at hstep
  split at hstep
  · rename_i hd
    split at hstep <;> cases hstep
    exact h.of_sameData ⟨rfl, rfl, by simp [hd], rfl, rfl, rfl, rfl, rfl, rfl⟩
  · rename_i hd
    cases hstep
    exact h.of_sameData ⟨rfl, rfl, by simp [hd], rfl, rfl, rfl, rfl, rfl, rfl⟩
  · rename_i hd
    split at hstep <;> cases hstep
    exact h.of_sameData ⟨rfl, rfl, by simp [hd], rfl, rfl, rfl, rfl, rfl, rfl⟩
  · split at hstep <;> cases hstep
    rename_i hfree
    refine h.of_nobody rfl rfl (h.nobody_of_free hfree) ?_ ?_ ?_ ?_ ?_ h.stray
    · simp [State.lockData]
    · simp [State.lockData]
    · have := h.listener
      simpa [State.lockData, hfree] using this
    · simp [State.lockData]
    · have := h.balance
      simpa [State.lockData, hfree] using this
  · rename_i hd
    cases hstep
    have hmtx := h.destructor.mp hd
    rw [unlockData_of_held (s := { s with dynamicData := none }) hmtx]
    refine h.of_nobody rfl rfl (h.nobody hmtx (by simp)) (by simp) (by simp) ?_ (by simp) ?_ h.stray
    · have := h.listener
      simpa [hmtx] using this
    · simpa using h.locks_of_held hmtx
  · cases hstep

theorem bufferInv_of_reachable (h : (machine r fastddsToXtypes (I := I)).Reachable s) :
    BufferInv fastddsToXtypes s := by
  refine h.invariant ?_ ?_
  · rintro s rfl
    exact bufferInv_initial
  · intro s e s' hinv hstep
    cases e with
    | listener result => exact stepListener_bufferInv hinv hstep
    | read id => exact stepRead_bufferInv hinv hstep
    | thread id branch => exact stepThread_bufferInv hinv hstep
    | cleaner => exact hinv.of_sameData (stepCleaner_sameData hstep)
    | destructor => exact stepDestructor_bufferInv hinv hstep

/-! ## No torn or misattributed sample -/

/-- In every interleaving, a thread that has not finished its conversion finds in the buffer the
sample it was started for and never saw another one; a callback gets that sample's message together
with that sample's info; the data mutex is released once for each time it was locked, by the
activity it was left to, and while it is locked that activity has its release still ahead. -/
theorem sample_not_torn (h : (machine r fastddsToXtypes (I := I)).Reachable s) :
    (∀ (id : Nat) (th : Thread C I M), s.threads[id]? = some th →
      (th.pc.holdsData = true → s.dynamicData = some th.sample.data) ∧
        ∀ c ∈ th.reads, c = th.sample.data) ∧
    (∀ d ∈ s.delivered, ∃ th : Thread C I M, s.threads[d.1]? = some th ∧
      fastddsToXtypes th.sample.data = some d.2.1 ∧ d.2.2 = th.sample.info) ∧
    s.strayUnlocks = 0 ∧ s.locks = s.unlocks + (if s.dataMtx.isSome then 1 else 0) ∧
    (∀ a, s.dataMtx = some a →
      (a = .listener ∧ s.listener = .take) ∨ (a = .destructor ∧ s.destructor = .dispose) ∨
      ∃ (id : Nat) (th : Thread C I M), a = .thread id ∧ s.threads[id]? = some th ∧
        th.pc.holdsData = true) := by
  have hinv := bufferInv_of_reachable h
  refine ⟨fun id th hth => ⟨hinv.buffer id th hth, (hinv.faithful id th hth).reads⟩,
    hinv.delivered, hinv.stray, hinv.balance, ?_⟩
  intro a ha
  cases a with
  | listener => exact .inl ⟨rfl, hinv.listener.mpr ha⟩
  | destructor => exact .inr (.inl ⟨rfl, hinv.destructor.mpr ha⟩)
  | cleaner => exact absurd ha hinv.cleaner
  | thread id =>
    obtain ⟨th, hth, hholds⟩ := (hinv.thread id).mp ha
    exact .inr (.inr ⟨id, th, rfl, hth, hholds⟩)

def oneSample : List (Event Nat Nat) :=
  [.listener none, .listener none, .listener (some ⟨7, 3, true⟩), .listener none,
    .read 0, .thread 0 true, .thread 0 true, .thread 0 true]

theorem sample_not_torn_oneSample :
    ∃ s, (machine .subscriber some).run (.initial : State Nat Nat Nat) oneSample = some s ∧
      s.delivered = [(0, 7, 3)] ∧ s.strayUnlocks = 0 ∧
      s.locks = s.unlocks + (if s.dataMtx.isSome then 1 else 0) := by
  refine ⟨_, rfl, rfl, ?_⟩
  have hreach := Machine.Reachable.of_run (S := machine .subscriber some)
    (Machine.ReachableVia.init (C := fun _ _ => True) rfl) oneSample rfl
  have h := sample_not_torn hreach
  exact ⟨h.2.2.1, h.2.2.2.1⟩

end FastDdsSh.Reception
