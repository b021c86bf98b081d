import TopicPublisher.Admission.Session
import TopicPublisher.Proofs.Admission.Turns
import Mathlib.Data.List.Induction

/-!
Runs of admission by itself at open ceilings. Callers have their numbers in the order in which they
came. Main statement: after every command each of them is granted, refused, given up or waiting,
nobody has been told to go on who did not look, and whoever was granted some bytes was before all
that wait.
-/

namespace TopicPublisher

/-- The size that a command asks for. -/
def AdmissionCommand.size? : AdmissionCommand → Option Nat
  | .attempt size => some size
  | .reserve size => some size
  | .release _ => none
  | .cancel _ => none
  | .close => none

namespace AdmissionSession

/-- A session with new ceilings after some commands. -/
def after (c : Ceilings) (commands : List AdmissionCommand) : AdmissionSession :=
  commands.foldl perform (ofCeilings c)

/-- What the callers asked for, in the order of their numbers. -/
def requested (commands : List AdmissionCommand) : List Nat :=
  commands.filterMap AdmissionCommand.size?

/-- A caller was given up while it waited. -/
def Cancelled (c : Ceilings) (commands : List AdmissionCommand) (caller : Nat) : Prop :=
  ∃ before, before ++ [.cancel caller] <+: commands ∧
    caller ∈ (after c before).admission.waiting.map Request.id

/-- The callers: those that wait or hold a reservation asked for their sizes, and everybody is
granted, refused, waiting or `gone`. -/
structure Registered (c : Ceilings) (sizes : List Nat) (gone : Nat → Prop)
    (s : AdmissionSession) : Prop where
  callers : s.callers = sizes.length
  asked : ∀ x ∈ s.admission.asked, sizes[x.id]? = some x.size
  live : ∀ x ∈ s.admission.live.toList, sizes[x.id]? = some x.size
  granted : ∀ j ∈ s.granted, j < sizes.length
  fits : ∀ x ∈ s.admission.asked, ∀ limit, c.bytes = some limit → x.size ≤ limit
  accounted : ∀ i < sizes.length, i ∈ s.granted ∨ i ∈ s.refused.map Prod.fst ∨
    i ∈ s.admission.asked.map Reservation.id ∨ gone i

/-- A session with open ceilings, perhaps in the middle of a command. A caller that was granted
some bytes was before all that wait. -/
structure Underway (c : Ceilings) (sizes : List Nat) (gone : Nat → Prop)
    (s : AdmissionSession) : Prop where
  balanced : s.admission.Balanced c [] 0
  tight : s.admission.Tight
  opened : s.admission.Shut false
  registered : Registered c sizes gone s
  orderly : s.admission.Orderly [] fun j => j ∈ s.granted ∧ sizes[j]? ≠ some 0

variable {c : Ceilings} {sizes told : List Nat} {gone gone' : Nat → Prop} {s : AdmissionSession}
  {a b : Admission} {x : Reservation} {decision : Decision} {command : AdmissionCommand}
  {commands : List AdmissionCommand} {caller size fuel : Nat}

theorem admission_note (s : AdmissionSession) (caller : Nat) (decision : Decision) :
    (s.note caller decision).admission = s.admission := by
  cases decision <;> rfl

theorem mem_granted_note (caller : Nat) (decision : Decision) (j : Nat) :
    j ∈ (s.note caller decision).granted ↔ j ∈ s.granted ∨ decision = .granted ∧ j = caller := by
  cases decision <;> simp [note]

theorem settleWith_nil (fuel : Nat) (s : AdmissionSession) : s.settleWith fuel [] = s := by
  cases fuel <;> rfl

theorem enter_quiet (s : AdmissionSession) (decision : Decision) (a : Admission) :
    s.enter (decision, a, []) =
      { s with admission := a, callers := s.callers + 1 }.note s.callers decision :=
  settleWith_nil _ _

/-! Who the callers are -/

/-- A caller that is between two waits is decided on. -/
theorem Registered.decided
    (h : Registered c sizes (fun i => gone i ∨ i = x.id) { s with admission := a })
    (decides : a.Decides x decision b) (known : sizes[x.id]? = some x.size)
    (fits : decision = .waiting → ∀ limit, c.bytes = some limit → x.size ≤ limit) :
    Registered c sizes gone ({ s with admission := b }.note x.id decision) := by
  cases decides with
  | granted live asked =>
    refine ⟨h.callers, fun y hy => h.asked y (asked.subset hy), fun y hy => ?_, fun j hj => ?_,
      fun y hy => h.fits y (asked.subset hy), fun i hi => ?_⟩
    · rcases List.mem_cons.mp (live.subset hy) with rfl | hy
      · exact known
      · exact h.live y hy
    · rcases List.mem_append.mp hj with hj | hj
      · exact h.granted j hj
      · obtain rfl := List.mem_singleton.mp hj
        exact (List.getElem?_eq_some_iff.mp known).1
    · change i ∈ s.granted ++ [x.id] ∨ _
      rw [List.mem_append, List.mem_singleton]
      rcases h.accounted i hi with granted | refused | waits | gone | rfl
      · exact .inl (.inl granted)
      · exact .inr (.inl refused)
      · exact .inr (.inr (.inl ((asked.symm.map _).subset waits)))
      · exact .inr (.inr (.inr gone))
      · exact .inl (.inr rfl)
  | waiting live asked =>
    refine ⟨h.callers, fun y hy => ?_, fun y hy => h.live y (live.subset hy), h.granted,
      fun y hy => ?_, fun i hi => ?_⟩
    · rcases List.mem_cons.mp (asked.subset hy) with rfl | hy
      · exact known
      · exact h.asked y hy
    · rcases List.mem_cons.mp (asked.subset hy) with rfl | hy
      · exact fits rfl
      · exact h.fits y hy
    · have waiting := (asked.symm.map Reservation.id).subset
      rcases h.accounted i hi with granted | refused | waits | gone | rfl
      · exact .inl granted
      · exact .inr (.inl refused)
      · exact .inr (.inr (.inl (waiting (List.mem_cons_of_mem _ waits))))
      · exact .inr (.inr (.inr gone))
      · exact .inr (.inr (.inl (waiting (List.mem_cons_self ..))))
  | refused error live asked =>
    refine ⟨h.callers, fun y hy => h.asked y (asked.subset hy),
      fun y hy => h.live y (live.subset hy), h.granted, fun y hy => h.fits y (asked.subset hy),
      fun i hi => ?_⟩
    change _ ∨ i ∈ (s.refused ++ [(x.id, error)]).map Prod.fst ∨ _
    rw [List.map_append, List.mem_append, List.map_singleton, List.mem_singleton]
    rcases h.accounted i hi with granted | refused | waits | gone | rfl
    · exact .inl granted
    · exact .inr (.inl (.inl refused))
    · exact .inr (.inr (.inl ((asked.symm.map _).subset waits)))
    · exact .inr (.inr (.inr gone))
    · exact .inr (.inl (.inr rfl))

/-- Some callers stop waiting, or give back what they hold. -/
theorem Registered.leave (h : Registered c sizes gone s)
    (live : a.live.toList ⊆ s.admission.live.toList) (asked : a.asked ⊆ s.admission.asked)
    (before : ∀ i, gone i → gone' i)
    (left : ∀ i ∈ s.admission.asked.map Reservation.id,
      i ∈ a.asked.map Reservation.id ∨ gone' i) :
    Registered c sizes gone' { s with admission := a } := by
  refine ⟨h.callers, fun y hy => h.asked y (asked hy), fun y hy => h.live y (live hy), h.granted,
    fun y hy => h.fits y (asked hy), fun i hi => ?_⟩
  rcases h.accounted i hi with granted | refused | waits | there
  · exact .inl granted
  · exact .inr (.inl refused)
  · exact .inr (.inr (left i waits))
  · exact .inr (.inr (.inr (before i there)))

theorem waits_or_eq {i : Nat} {asked : List Reservation} (waits : i ∈ asked.map Reservation.id)
    (caller : Nat) :
    i ∈ (asked.filter (·.id != caller)).map Reservation.id ∨ i = caller := by
  obtain ⟨x, hx, rfl⟩ := List.mem_map.mp waits
  by_cases same : x.id = caller
  · exact .inr same
  · exact .inl (List.mem_map_of_mem (List.mem_filter.mpr ⟨hx, by simpa using same⟩))

theorem Registered.arrive (h : Registered c sizes gone s) (size : Nat) :
    Registered c (sizes ++ [size]) (fun i => gone i ∨ i = s.callers)
      { s with callers := s.callers + 1 } := by
  have kept {i m : Nat} (hi : sizes[i]? = some m) : (sizes ++ [size])[i]? = some m := by
    rw [List.getElem?_append_left (List.getElem?_eq_some_iff.mp hi).1]
    exact hi
  refine ⟨?_, fun y hy => kept (h.asked y hy), fun y hy => kept (h.live y hy), fun j hj => ?_,
    h.fits, fun i hi => ?_⟩
  · change s.callers + 1 = _
    rw [List.length_append, h.callers]
    rfl
  · rw [List.length_append]
    exact Nat.lt_succ_of_lt (h.granted j hj)
  · rw [List.length_append] at hi
    rcases Nat.lt_succ_iff_lt_or_eq.mp hi with hi | rfl
    · exact (h.accounted i hi).imp_right (.imp_right (.imp_right .inl))
    · exact .inr (.inr (.inr (.inr h.callers.symm)))

/-! Going on -/

/-- Whoever was granted some bytes was so before, or is the caller that was just decided on. -/
theorem passed_note {j : Nat}
    (passed : j ∈ (s.note caller decision).granted ∧ sizes[j]? ≠ some 0) :
    (j ∈ s.granted ∧ sizes[j]? ≠ some 0) ∨
      decision = .granted ∧ j = caller ∧ sizes[caller]? ≠ some 0 := by
  rcases (mem_granted_note caller decision j).mp passed.1 with before | ⟨granted, rfl⟩
  · exact .inl ⟨before, passed.2⟩
  · exact .inr ⟨granted, rfl, passed.2⟩

theorem Registered.resume (h : Registered c sizes gone s) (balanced : s.admission.Balanced c [] 0)
    (done : s.admission.resume caller = (decision, b, told)) :
    Registered c sizes gone ({ s with admission := b }.note caller decision) := by
  cases hreq : s.admission.request? caller with
  | none =>
    have idle : s.admission.resume caller = (.waiting, s.admission, []) := by
      rw [Admission.resume, hreq]
    obtain ⟨rfl, rfl, -⟩ : decision = .waiting ∧ b = s.admission ∧ told = [] := by
      simpa using done.symm.trans idle
    exact h
  | some r =>
    obtain ⟨hr, rfl⟩ := Admission.mem_of_request? hreq
    have mine : r.reservation ∈ s.admission.asked := List.mem_map_of_mem hr
    have decides := Admission.resume_decides balanced.nodup_waiting hr
    rw [done] at decides
    have settled : Registered c sizes (fun i => gone i ∨ i = r.id)
        { s with admission := s.admission.settle r.id } := by
      refine h.leave (List.Subset.refl _) ?_ (fun i => .inl) fun i waits => ?_
      · rw [Admission.asked_settle]
        exact List.filter_subset_self _
      · rw [Admission.asked_settle]
        exact (waits_or_eq waits r.id).imp_right .inr
    exact settled.decided decides (h.asked _ mine) fun _ => h.fits _ mine

/-- A caller goes on; it tells nobody, and is not told itself any more. -/
theorem Underway.goOn (h : Underway c sizes gone s) (caller : Nat) :
    ∃ decision b, s.admission.resume caller = (decision, b, []) ∧
      Underway c sizes gone ({ s with admission := b }.note caller decision) ∧
      b.told ⊆ s.admission.told ∧ caller ∉ b.told := by
  obtain ⟨decision, b, done, resumes⟩ := Admission.resume_resumes h.balanced h.opened caller
  have changed := Admission.resume_changed h.tight caller
  have untold := Admission.resume_untold h.balanced caller
  have balanced := h.balanced.after_resume caller
  rw [done] at changed untold balanced
  refine ⟨decision, b, done, ⟨?_, ?_, ?_, h.registered.resume h.balanced done, ?_⟩, ?_, untold⟩
  · rw [admission_note]
    exact balanced
  · rw [admission_note]
    exact h.tight.changed changed
  · rw [admission_note]
    exact h.opened.changed changed
  · rw [admission_note]
    refine h.orderly.resumes h.tight resumes fun j passed => ?_
    refine (passed_note passed).imp_right fun ⟨granted, mine, positive⟩ => ⟨granted, mine, ?_⟩
    rintro r hr rfl
    refine Nat.pos_of_ne_zero fun zero => positive ?_
    rw [← zero]
    exact h.registered.asked r.reservation (List.mem_map_of_mem hr)
  · have fewer := changed.told_subset
    rwa [List.append_nil] at fewer

/-- Everybody who was told goes on, and then nobody is told. -/
theorem Underway.settleWith (h : Underway c sizes gone s) (heard : s.admission.told ⊆ told)
    (enough : told.length ≤ fuel) :
    Underway c sizes gone (s.settleWith fuel told) ∧
      (s.settleWith fuel told).admission.told = [] := by
  induction told generalizing s fuel with
  | nil =>
    rw [settleWith_nil]
    exact ⟨h, List.eq_nil_of_subset_nil heard⟩
  | cons caller rest ih =>
    obtain ⟨fuel, rfl⟩ := Nat.exists_eq_succ_of_ne_zero (Nat.ne_of_gt (Nat.zero_lt_of_lt enough))
    obtain ⟨decision, b, done, next, fewer, untold⟩ := h.goOn caller
    rw [AdmissionSession.settleWith, done]
    dsimp only
    rw [List.append_nil]
    refine ih next (fun id hid => ?_) (Nat.le_of_succ_le_succ enough)
    rw [admission_note] at hid
    rcases List.mem_cons.mp (heard (fewer hid)) with rfl | there
    · exact absurd hid untold
    · exact there

theorem Underway.settle (h : Underway c sizes gone s) (heard : s.admission.told ⊆ told) :
    Underway c sizes gone (s.settle told) ∧ (s.settle told).admission.told = [] :=
  h.settleWith heard (Nat.le_add_right ..)

/-! Commands -/

/-- Everything that the answer to a new request at open ceilings is. -/
structure Answered (c : Ceilings) (a : Admission) (id size : Nat)
    (answer : Decision × Admission × List Nat) : Prop where
  enters : a.Enters id size answer.1 answer.2.1
  decides : a.Decides ⟨id, size⟩ answer.1 answer.2.1
  changed : Admission.Changed [] a answer.2.1
  balanced : answer.2.1.Balanced c [] 0
  fits : answer.1 = .waiting → ∀ limit, c.bytes = some limit → size ≤ limit
  quiet : answer.2.2 = []

theorem answered_tryReserve (balanced : a.Balanced c [] 0) (tight : a.Tight)
    (opened : a.Shut false) {id : Nat} (unused : a.Unused [] id) (size : Nat) :
    Answered c a id size (a.tryReserve id size) := by
  obtain ⟨decision, b, done, enters⟩ := Admission.tryReserve_enters balanced tight opened id size
  have decides := Admission.tryReserve_decides a id size
  have changed := Admission.tryReserve_changed a id size
  have after := balanced.after_tryReserve unused size
  have never := Admission.tryReserve_waits a id size
  rw [done] at decides changed after never ⊢
  exact ⟨enters, decides, changed, after, fun waits => absurd waits never, rfl⟩

theorem answered_reserve (balanced : a.Balanced c [] 0) (tight : a.Tight)
    (opened : a.Shut false) {id : Nat} (unused : a.Unused [] id) (size : Nat) :
    Answered c a id size (a.reserve id size) := by
  obtain ⟨decision, b, done, enters⟩ := Admission.reserve_enters balanced tight opened id size
  have decides := Admission.reserve_decides a id size
  have changed := Admission.reserve_changed a id size
  have after := balanced.after_reserve unused size
  have fits : (a.reserve id size).1 = .waiting →
      ∀ limit, a.ceilings.bytes = some limit → size ≤ limit := Admission.reserve_waits
  rw [done] at decides changed after fits ⊢
  exact ⟨enters, decides, changed, after, balanced.ceilings ▸ fits, rfl⟩

theorem Registered.waiting_lt (h : Registered c sizes gone s) {i : Nat}
    (waits : i ∈ s.admission.waiting.map Request.id) : i < s.callers := by
  rw [← Admission.asked_ids] at waits
  obtain ⟨x, hx, rfl⟩ := List.mem_map.mp waits
  rw [h.callers]
  exact (List.getElem?_eq_some_iff.mp (h.asked x hx)).1

theorem Registered.unused (h : Registered c sizes gone s) : s.admission.Unused [] s.callers := by
  have last {m : Nat} : sizes[s.callers]? ≠ some m := by
    rw [h.callers, List.getElem?_eq_none (Nat.le_refl _)]
    exact nofun
  intro used
  rw [List.map_nil, List.append_nil, ← Admission.asked_ids, List.mem_append] at used
  rcases used with waits | live
  · obtain ⟨x, hx, same⟩ := List.mem_map.mp waits
    exact last (same ▸ h.asked x hx)
  · obtain ⟨x, hx, same⟩ := List.mem_map.mp live
    exact last (same ▸ h.live x hx)

theorem Underway.enter (h : Underway c sizes gone s) (settled : s.admission.told = [])
    {answer : Decision × Admission × List Nat}
    (answered : Answered c s.admission s.callers size answer) :
    Underway c (sizes ++ [size]) gone (s.enter answer) ∧ (s.enter answer).admission.told = [] := by
  obtain ⟨decision, b, told⟩ := answer
  obtain rfl : told = [] := answered.quiet
  have arrived := h.registered.arrive size
  have last : (sizes ++ [size])[s.callers]? = some size := by
    rw [h.registered.callers]
    exact List.getElem?_concat_length
  have registered : Registered c (sizes ++ [size]) gone
      ({ s with admission := b, callers := s.callers + 1 }.note s.callers decision) :=
    arrived.decided (s := { s with callers := s.callers + 1 }) answered.decides last answered.fits
  refine Underway.settle ⟨?_, ?_, ?_, registered, ?_⟩ ?_
  · rw [admission_note]
    exact answered.balanced
  · rw [admission_note]
    exact h.tight.changed answered.changed
  · rw [admission_note]
    exact h.opened.changed answered.changed
  · rw [admission_note]
    refine h.orderly.enters h.tight settled (fun i hi => ?_) (fun j hj => ?_) answered.enters
      fun j passed => ?_
    · exact h.registered.waiting_lt (h.balanced.line_waiting i hi)
    · exact h.registered.callers ▸ h.registered.granted j hj.1
    · rcases passed_note passed with ⟨before, positive⟩ | ⟨granted, mine, positive⟩
      · refine .inl ⟨before, ?_⟩
        rwa [List.getElem?_append_left (h.registered.granted j before)] at positive
      · refine .inr ⟨granted, Nat.pos_of_ne_zero fun zero => positive ?_, mine⟩
        rw [← zero]
        exact last
  · rw [admission_note]
    have fewer := answered.changed.told_subset
    rwa [settled, List.append_nil] at fewer

/-- A call that decides nothing is followed by those that it tells. -/
theorem Underway.call (h : Underway c sizes gone s) (settled : s.admission.told = [])
    (changed : Admission.Changed told s.admission a) (balanced : a.Balanced c [] 0)
    (registered : Registered c sizes gone' { s with admission := a })
    (orderly : a.Orderly [] fun j => j ∈ s.granted ∧ sizes[j]? ≠ some 0) :
    Underway c sizes gone' (AdmissionSession.settle { s with admission := a } told) ∧
      (AdmissionSession.settle { s with admission := a } told).admission.told = [] := by
  have after : Underway c sizes gone' { s with admission := a } :=
    ⟨balanced, h.tight.changed changed, h.opened.changed changed, registered, orderly⟩
  refine after.settle ?_
  have heard := changed.told_subset
  rwa [settled, List.nil_append] at heard

theorem Underway.perform (h : Underway c sizes gone s) (settled : s.admission.told = [])
    (opened : command ≠ .close) (before : ∀ i, gone i → gone' i)
    (cancelled : ∀ i ∈ s.admission.waiting.map Request.id, command = .cancel i → gone' i) :
    Underway c (sizes ++ command.size?.toList) gone' (s.perform command) ∧
      (s.perform command).admission.told = [] := by
  have kept : Underway c sizes gone' s :=
    { h with
      registered := h.registered.leave (List.Subset.refl _) (List.Subset.refl _) before
        fun i => .inl }
  cases command with
  | attempt size =>
    exact kept.enter settled
      (answered_tryReserve h.balanced h.tight h.opened h.registered.unused size)
  | reserve size =>
    exact kept.enter settled
      (answered_reserve h.balanced h.tight h.opened h.registered.unused size)
  | release caller =>
    have asked := Admission.release_asked s.admission caller
    have left : Registered c sizes gone' { s with admission := (s.admission.release caller).1 } :=
      kept.registered.leave (Admission.release_live_subset s.admission caller)
        (asked ▸ List.Subset.refl _) (fun i => id) fun i waits => .inl (asked ▸ waits)
    rw [AdmissionCommand.size?, Option.toList_none, List.append_nil]
    exact kept.call settled (Admission.release_changed s.admission caller)
      (h.balanced.release caller) left (h.orderly.release h.balanced h.tight settled caller)
  | cancel caller =>
    obtain ⟨live, asked⟩ := Admission.cancel_same s.admission caller
    have left : Registered c sizes gone' { s with admission := (s.admission.cancel caller).1 } := by
      refine kept.registered.leave (fun x hx => live ▸ hx) ?_ (fun i => id) fun i waits => ?_
      · rw [asked]
        exact List.filter_subset_self _
      · rw [asked]
        refine (waits_or_eq waits caller).imp_right ?_
        rintro rfl
        rw [Admission.asked_ids] at waits
        exact cancelled i waits rfl
    rw [AdmissionCommand.size?, Option.toList_none, List.append_nil]
    exact kept.call settled (Admission.cancel_changed s.admission caller)
      (h.balanced.cancel caller) left (h.orderly.cancel h.balanced h.tight settled caller)
  | close => exact absurd rfl opened

/-! Runs -/

theorem ofCeilings_underway (c : Ceilings) : Underway c [] gone (ofCeilings c) where
  balanced := Admission.ofCeilings_balanced c
  tight := Admission.ofCeilings_tight c
  opened := Admission.ofCeilings_shut c
  registered := ⟨rfl, nofun, nofun, nofun, nofun, nofun⟩
  orderly :=
    have h := Admission.ofCeilings_orderly c
    ⟨h.ranked, h.single, nofun⟩

theorem after_concat (c : Ceilings) (commands : List AdmissionCommand)
    (command : AdmissionCommand) :
    after c (commands ++ [command]) = (after c commands).perform command := by
  rw [after, List.foldl_append]
  rfl

theorem Cancelled.concat (h : Cancelled c commands caller) (command : AdmissionCommand) :
    Cancelled c (commands ++ [command]) caller := by
  obtain ⟨before, first, waits⟩ := h
  exact ⟨before, first.trans (List.prefix_append _ _), waits⟩

/-- After every command on open ceilings nobody is told who has not looked. -/
theorem after_underway (c : Ceilings) (opened : .close ∉ commands) :
    Underway c (requested commands) (Cancelled c commands) (after c commands) ∧
      (after c commands).admission.told = [] := by
  induction commands using List.reverseRecOn with
  | nil => exact ⟨ofCeilings_underway c, Admission.ofCeilings_told c⟩
  | append_singleton before command ih =>
    rw [List.mem_append, List.mem_singleton, not_or] at opened
    obtain ⟨underway, settled⟩ := ih opened.1
    have asked : requested (before ++ [command]) = requested before ++ command.size?.toList := by
      rw [requested, List.filterMap_append]
      cases command <;> rfl
    rw [after_concat, asked]
    refine underway.perform settled (Ne.symm opened.2) (fun i gone => gone.concat command) ?_
    rintro i waits rfl
    exact ⟨before, List.prefix_refl _, waits⟩

/-! Reports -/

/-- A session in which some callers were decided on before. -/
def preceded (granted : List Nat) (refused : List (Nat × PublishError)) (s : AdmissionSession) :
    AdmissionSession :=
  { s with granted := granted ++ s.granted, refused := refused ++ s.refused }

theorem preceded_note (granted : List Nat) (refused : List (Nat × PublishError))
    (s : AdmissionSession) (caller : Nat) (decision : Decision) :
    (preceded granted refused s).note caller decision =
      preceded granted refused (s.note caller decision) := by
  cases decision <;> simp [preceded, note]

theorem preceded_settleWith (granted : List Nat) (refused : List (Nat × PublishError))
    (fuel : Nat) (told : List Nat) (s : AdmissionSession) :
    (preceded granted refused s).settleWith fuel told =
      preceded granted refused (s.settleWith fuel told) := by
  induction fuel generalizing told s with
  | zero => cases told <;> rfl
  | succ fuel ih =>
    cases told with
    | nil => rfl
    | cons caller rest =>
      rw [settleWith, settleWith]
      dsimp only
      rw [← ih, ← preceded_note]
      rfl

theorem preceded_settle (granted : List Nat) (refused : List (Nat × PublishError))
    (told : List Nat) (s : AdmissionSession) :
    (preceded granted refused s).settle told = preceded granted refused (s.settle told) :=
  preceded_settleWith granted refused _ told s

theorem preceded_perform (granted : List Nat) (refused : List (Nat × PublishError))
    (s : AdmissionSession) (command : AdmissionCommand) :
    (preceded granted refused s).perform command =
      preceded granted refused (s.perform command) := by
  have entered (answer : Decision × Admission × List Nat) :
      (preceded granted refused s).enter answer = preceded granted refused (s.enter answer) := by
    obtain ⟨decision, a, told⟩ := answer
    change ((preceded granted refused { s with admission := a, callers := s.callers + 1 }).note
      s.callers decision).settle told = _
    rw [preceded_note, preceded_settle]
    rfl
  cases command with
  | attempt size => exact entered _
  | reserve size => exact entered _
  | release caller =>
    exact preceded_settle _ _ _ { s with admission := (s.admission.release caller).1 }
  | cancel caller =>
    exact preceded_settle _ _ _ { s with admission := (s.admission.cancel caller).1 }
  | close => exact preceded_settle _ _ _ { s with admission := s.admission.close.1 }

theorem reports_preceded (granted : List Nat) (refused : List (Nat × PublishError))
    (commands : List AdmissionCommand) (s : AdmissionSession) :
    reports commands (preceded granted refused s) = reports commands s := by
  cases commands <;> rfl

/-- The reports of a session name the callers that are granted in it. -/
theorem reports_granted (commands : List AdmissionCommand) (s : AdmissionSession) :
    (s.granted ++ (reports commands s).flatMap AdmissionReport.granted).Perm
      (commands.foldl perform s).granted := by
  induction commands generalizing s with
  | nil => simp [reports]
  | cons command rest ih =>
    have fresh : s.perform command = preceded s.granted s.refused
        ({ s with granted := [], refused := [] }.perform command) := by
      rw [← preceded_perform]
      simp [preceded]
    have later := ih (s.perform command)
    rw [fresh, reports_preceded] at later
    rw [reports, List.foldl_cons, fresh]
    refine List.Perm.trans ?_ later
    rw [List.flatMap_cons, ← List.append_assoc]
    refine List.Perm.append_right _ (List.Perm.append_left _ ?_)
    exact List.mergeSort_perm ..

end AdmissionSession
end TopicPublisher
