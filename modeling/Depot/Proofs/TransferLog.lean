import Depot.Proofs.Trace

/-! The log of uploads. What clients do and are answered says which entries the log has: an upload
that was opened leaves one, when it is closed for the first time or dropped unclosed, and nothing
that was refused shows in it. -/
namespace Depot

/-- The version that a commit answers is stored. -/
theorem Store.commit_record (s : Store) (metadata : UploadMetadata) (content : ByteArray) :
    (s.commit metadata content).1.name = metadata.name ∧
      ∃ v ∈ (s.commit metadata content).2.versions, v.record = (s.commit metadata content).1 := by
  let hash := Sha256.hex content
  let v := (Versions.lookup s.versions metadata.name hash).getD
    (s.freshVersion metadata.name hash content)
  have stored : v ∈ (s.addContent metadata.name hash content).versions ∧
      v.name = metadata.name := by
    unfold addContent
    cases found : Versions.lookup s.versions metadata.name hash with
    | some w =>
      have ⟨member, named, _⟩ := Versions.lookup_found found
      simpa [v, found] using ⟨member, named⟩
    | none => simp [v, found, Versions.mem_insert, freshVersion]
  constructor
  · exact (v.retaggedAll_name metadata.name hash metadata.tags).trans stored.2
  · refine ⟨v.retaggedAll metadata.name hash metadata.tags, ?_, rfl⟩
    simp only [commit, Versions.retagAll_eq_map]
    exact List.mem_map_of_mem stored.1

def Transfer.isUpload : Transfer → Bool
  | .upload .. => true
  | .pull .. => false

namespace Traffic

/-- The entries that a trace leaves, each beside the step that ended the call. -/
def account (past : Trace) : Trace → List (Step × Transfer)
  | [] => []
  | event :: rest =>
    ((transfer? past event).map fun transfer => (event.1, transfer)).toList ++
      account (past ++ [event]) rest

theorem account_append (past front back : Trace) :
    account past (front ++ back) = account past front ++ account (past ++ front) back := by
  induction front generalizing past with
  | nil => simp [account]
  | cons event front ih => simp [account, ih]

namespace State

def isGoing (w : State) (i : Nat) : Bool :=
  match w.handles i with
  | .held u => !u.finished
  | _ => false

def hasEnded (w : State) (i : Nat) : Bool :=
  match w.handles i with
  | .unused => false
  | .held u => u.finished
  | .dropped => true

end State

/-- The upload is as its part of the trace says; of one that was dropped nothing is left to say. -/
def Follows (t : Trace) : Handle → Prop
  | .unused => accepted t = [] ∧ closed t = false
  | .held u => acceptedName? t = u.metadata.map (·.name) ∧
      acceptedSizes t = u.frames.toList.map ByteArray.size ∧ closed t = u.finished
  | .dropped => True

variable {w v : State} {past t : Trace} {event : Step × Answer} {i : Nat} {u : Upload}

theorem Follows.quiet {h : Handle} (follows : Follows t h) (none_accepted : accepted [event] = [])
    (none_closed : closed [event] = false) : Follows (t ++ [event]) h := by
  cases h with
  | unused =>
    simpa [Follows, accepted_append, closed_append, none_accepted, none_closed] using follows
  | held u =>
    have none_named : acceptedName? [event] = none := by simp [acceptedName?, none_accepted]
    have none_sized : acceptedSizes [event] = [] := by simp [acceptedSizes, none_accepted]
    simpa [Follows, acceptedName?_append, acceptedSizes_append, closed_append, none_named,
      none_sized, none_closed] using follows
  | dropped => trivial

theorem Follows.opened (follows : Follows t .unused) :
    Follows (t ++ [(.openUpload i, .done (.ok ()))]) (.held {}) := by
  obtain ⟨none_accepted, unclosed⟩ := follows
  have none_accepted : accepted (t ++ [(.openUpload i, .done (.ok ()))]) = [] := by
    rw [accepted_append, none_accepted]
    rfl
  refine ⟨?_, ?_, ?_⟩
  · simp [acceptedName?, none_accepted]
  · simp [acceptedSizes, none_accepted]
  · rw [closed_append, unclosed]
    rfl

theorem Follows.accepted {u v : Upload} {frame : UploadFrame} (follows : Follows t (.held u))
    (sent : u.send frame = (.ok (), v)) :
    Follows (t ++ [(.send i frame, .done (.ok ()))]) (.held v) := by
  obtain ⟨named, sized, same⟩ := follows
  obtain ⟨going, stillGoing, name, sizes, _⟩ := Upload.send_accepted sent
  refine ⟨?_, ?_, ?_⟩
  · rw [acceptedName?_append, named, name]
    simp [acceptedName?, Traffic.accepted]
  · rw [acceptedSizes_append, sized, sizes]
    cases frame <;> rfl
  · rw [closed_append, same, going, stillGoing]
    rfl

theorem Follows.closed (follows : Follows t (.held u)) (answer : Except RegistryError Artifact) :
    Follows (t ++ [(.close i, .artifact answer)]) (.held { u with finished := true }) := by
  obtain ⟨named, sized, _⟩ := follows
  refine ⟨?_, ?_, ?_⟩
  · rw [acceptedName?_append, named]
    simp [acceptedName?, Traffic.accepted]
  · rw [acceptedSizes_append, sized]
    simp [acceptedSizes, Traffic.accepted]
  · rw [closed_append]
    simp [Traffic.closed]

theorem Follows.entry_close (follows : Follows (trail i past) (.held u))
    (answer : Except RegistryError Artifact) : transfer? past (.close i, .artifact answer) =
      if u.finished then none
      else some (u.transfer (if u.metadata.isSome then .committed else .rejected)) := by
  obtain ⟨named, sized, same⟩ := follows
  simp [transfer?, named, sized, same, Upload.transfer]

theorem Follows.entry_drop (follows : Follows (trail i past) (.held u)) :
    transfer? past (.drop i, .done (.ok ())) =
      if u.finished then none else some (u.transfer .cancelled) := by
  obtain ⟨named, sized, same⟩ := follows
  simp [transfer?, named, sized, same, Upload.transfer]

theorem follows_tracks : Tracks Follows where
  fresh := ⟨rfl, rfl⟩
  quiet := Follows.quiet
  opened _ := Follows.opened
  accepted _ := Follows.accepted
  closed _ answer follows := follows.closed answer
  dropped _ := trivial

/-! ### The account of a run -/

theorem account_snoc (past : Trace) (event : Step × Answer) : account [] (past ++ [event]) =
    account [] past ++ ((transfer? past event).map fun transfer => (event.1, transfer)).toList := by
  simp [account_append, account]

/-- The log grows by the entry of the turn. -/
theorem Turn.logged (turn : Turn w event v) (follows : ∀ i, Follows (trail i past) (w.handles i)) :
    v.store.transfers = w.store.transfers ++ (transfer? past event).toList := by
  cases turn with
  | opened unused => exact (List.append_nil _).symm
  | accepted held sent => exact (List.append_nil _).symm
  | @closed i u s answer outcome held going outcome_eq logged =>
    have before := follows i
    rw [held] at before
    simpa [before.entry_close, going, outcome_eq] using logged
  | @cancelled i u held going =>
    have before := follows i
    rw [held] at before
    simp [before.entry_drop, going, Store.log]
  | @released i u held finished =>
    have before := follows i
    rw [held] at before
    simp [before.entry_drop, finished]
  | @closedAgain i u answer held finished =>
    have before := follows i
    rw [held] at before
    simp [before.entry_close, finished]
  | pulled logged => exact logged
  | unnoticed logged nothing _ _ _ => simpa [nothing] using logged

/-- What a turn means for the number of uploads: one begins, one ends and is logged, or neither. -/
inductive Tally (past : Trace) (w : State) (event : Step × Answer) (v : State) : Prop where
  | begins {i : Nat} (unused : w.handles i = .unused) (opens : opened [event] = [i])
      (unlogged : transfer? past event = none) (next : v = w.setHandle i (.held {}))
  | ends {i : Nat} {name : Option QualifiedName} {sizes : List Nat} {outcome : UploadOutcome}
      (going : w.isGoing i = true) (ended : v.hasEnded i = true)
      (others : ∀ j, j ≠ i → v.handles j = w.handles j) (about : event.1.upload? = some i)
      (opens : opened [event] = [])
      (logged : transfer? past event = some (.upload name sizes outcome))
  | stays (same : ∀ j, v.isGoing j = w.isGoing j ∧ v.hasEnded j = w.hasEnded j)
      (opens : opened [event] = []) (logged : ∀ transfer, transfer? past event = some transfer →
        transfer.isUpload = false ∧ event.1.upload? = none) : Tally past w event v

theorem State.held_of_going (going : w.isGoing i = true) :
    ∃ u, w.handles i = .held u ∧ u.finished = false := by
  unfold isGoing at going
  cases handle : w.handles i <;> simp_all

theorem State.isGoing_of_ended (ended : w.hasEnded i = true) : w.isGoing i = false := by
  unfold hasEnded at ended
  unfold isGoing
  cases handle : w.handles i <;> simp_all

/-- One handle for another, where both are of uploads that go on or both of uploads that ended. -/
theorem stays_setHandle {h : Handle} (s : Store)
    (same : ((w.setStore s).setHandle i h).isGoing i = w.isGoing i ∧
      ((w.setStore s).setHandle i h).hasEnded i = w.hasEnded i) (j : Nat) :
    ((w.setStore s).setHandle i h).isGoing j = w.isGoing j ∧
      ((w.setStore s).setHandle i h).hasEnded j = w.hasEnded j := by
  by_cases apart : j = i
  · rw [apart]
    exact same
  · simp [State.isGoing, State.hasEnded, apart]

theorem Turn.tally (turn : Turn w event v) (follows : ∀ i, Follows (trail i past) (w.handles i)) :
    Tally past w event v := by
  cases turn with
  | opened unused => exact .begins unused rfl rfl rfl
  | accepted held sent =>
    obtain ⟨going, stillGoing, _⟩ := Upload.send_accepted sent
    refine .stays (stays_setHandle w.store ?_) rfl (by simp [transfer?])
    simp [State.isGoing, State.hasEnded, held, going, stillGoing]
  | @closed i u s answer outcome held going _ _ =>
    have before := follows i
    rw [held] at before
    refine .ends (by simp [State.isGoing, held, going]) (by simp [State.hasEnded]) ?_ rfl rfl
      (by simp only [before.entry_close, going]; rfl)
    intro j apart
    simp [apart]
  | @cancelled i u held going =>
    have before := follows i
    rw [held] at before
    refine .ends (by simp [State.isGoing, held, going]) (by simp [State.hasEnded]) ?_ rfl rfl
      (by simp only [before.entry_drop, going]; rfl)
    intro j apart
    simp [apart]
  | @released i u held finished =>
    have before := follows i
    rw [held] at before
    refine .stays (stays_setHandle w.store ?_) rfl (by simp [before.entry_drop, finished])
    simp [State.isGoing, State.hasEnded, held, finished]
  | @closedAgain i u answer held finished =>
    have before := follows i
    rw [held] at before
    exact .stays (fun _ => ⟨rfl, rfl⟩) rfl (by simp [before.entry_close, finished])
  | pulled logged =>
    refine .stays (fun _ => ⟨rfl, rfl⟩) rfl ?_
    intro transfer found
    obtain rfl := Option.some.inj found
    exact ⟨rfl, rfl⟩
  | unnoticed logged nothing none_opened _ _ =>
    exact .stays (fun _ => ⟨rfl, rfl⟩) none_opened (by simp [nothing])

/-- One among distinct things that stops counting. -/
theorem countP_stop {l : List Nat} {p q : Nat → Bool} (distinct : l.Nodup) (member : i ∈ l)
    (before : p i = true) (after : q i = false) (others : ∀ j, j ≠ i → q j = p j) :
    l.countP q + 1 = l.countP p := by
  have perm := List.perm_cons_erase member
  rw [perm.countP_eq q, perm.countP_eq p, List.countP_cons_of_pos before,
    List.countP_cons_of_neg (by simp [after])]
  congr 1
  apply List.countP_congr
  intro j memberJ
  rw [others j (distinct.mem_erase_iff.mp memberJ).1]

structure Accounts (past : Trace) (w : State) : Prop where
  follows (i : Nat) : Follows (trail i past) (w.handles i)
  logged : w.store.transfers = (account [] past).map Prod.snd
  known (i : Nat) : i ∈ opened past ↔ w.isGoing i = true ∨ w.hasEnded i = true
  distinct : (opened past).Nodup
  once (i : Nat) : ((account [] past).filter fun entry => entry.1.isAbout i).length =
    if w.hasEnded i then 1 else 0
  counted : w.store.transfers.countP Transfer.isUpload + (opened past).countP w.isGoing =
    (opened past).length

theorem accounts_start : Accounts [] start where
  follows _ := ⟨rfl, rfl⟩
  logged := rfl
  known i := by simp [opened, start, State.isGoing, State.hasEnded]
  distinct := .nil
  once _ := rfl
  counted := rfl

namespace Accounts

variable (accounts : Accounts past w)
include accounts

theorem logged_turn (turn : Turn w event v) :
    v.store.transfers = (account [] (past ++ [event])).map Prod.snd := by
  rw [turn.logged accounts.follows, accounts.logged, account_snoc]
  cases transfer? past event <;> simp

theorem unknown (unused : w.handles i = .unused) : i ∉ opened past := by
  rw [accounts.known]
  simp [State.isGoing, State.hasEnded, unused]

theorem known_turn (tally : Tally past w event v) (j : Nat) :
    j ∈ opened (past ++ [event]) ↔ v.isGoing j = true ∨ v.hasEnded j = true := by
  rw [opened_append, List.mem_append, accounts.known]
  cases tally with
  | @begins i unused opens _ next =>
    subst next
    rw [opens]
    by_cases same : j = i
    · simp [same, State.isGoing]
    · simp [same, State.isGoing, State.hasEnded]
  | @ends i _ _ _ going ended others _ opens _ =>
    rw [opens]
    by_cases same : j = i
    · simp [same, going, ended]
    · simp [State.isGoing, State.hasEnded, others j same]
  | stays same opens _ => simp [opens, same j]

theorem distinct_turn (tally : Tally past w event v) : (opened (past ++ [event])).Nodup := by
  rw [opened_append]
  cases tally with
  | begins unused opens _ _ =>
    rw [opens]
    refine List.nodup_append.mpr ⟨accounts.distinct, by simp, ?_⟩
    intro a member b same
    obtain rfl := List.mem_singleton.mp same
    exact fun equal => accounts.unknown unused (equal ▸ member)
  | ends _ _ _ _ opens _ => simpa [opens] using accounts.distinct
  | stays _ opens _ => simpa [opens] using accounts.distinct

theorem once_turn (tally : Tally past w event v) (j : Nat) :
    ((account [] (past ++ [event])).filter fun entry => entry.1.isAbout j).length =
      if v.hasEnded j then 1 else 0 := by
  rw [account_snoc, List.filter_append, List.length_append, accounts.once]
  cases tally with
  | @begins i unused _ unlogged next =>
    subst next
    have kept : (w.setHandle i (.held {})).hasEnded j = w.hasEnded j := by
      by_cases same : j = i
      · simp [same, State.hasEnded, unused]
      · simp [same, State.hasEnded]
    simp [unlogged, kept]
  | @ends i _ _ _ going ended others about _ logged =>
    by_cases same : j = i
    · have unended : w.hasEnded i = false := by
        cases already : w.hasEnded i with
        | false => rfl
        | true => simp [State.isGoing_of_ended already] at going
      simp [logged, same, ended, unended, Step.isAbout, about]
    · have kept : v.hasEnded j = w.hasEnded j := by simp [State.hasEnded, others j same]
      simp [logged, kept, Step.isAbout, about, Ne.symm same]
  | stays same _ logged =>
    rw [(same j).2]
    cases entry : transfer? past event with
    | none => simp
    | some transfer =>
      obtain ⟨_, nowhere⟩ := logged transfer entry
      simp [Step.isAbout, nowhere]

theorem counted_turn (turn : Turn w event v) (tally : Tally past w event v) :
    v.store.transfers.countP Transfer.isUpload + (opened (past ++ [event])).countP v.isGoing =
      (opened (past ++ [event])).length := by
  have before := accounts.counted
  rw [turn.logged accounts.follows, opened_append, List.countP_append, List.countP_append,
    List.length_append]
  cases tally with
  | @begins i unused opens unlogged next =>
    subst next
    have others : (opened past).countP (w.setHandle i (.held {})).isGoing =
        (opened past).countP w.isGoing := by
      apply List.countP_congr
      intro j member
      have apart : j ≠ i := fun same => accounts.unknown unused (same ▸ member)
      simp [State.isGoing, apart]
    have new : (w.setHandle i (.held {})).isGoing i = true := by simp [State.isGoing]
    simp only [opens, unlogged, others, new, List.countP_singleton, Option.toList_none,
      List.countP_nil, List.length_singleton, if_true]
    omega
  | @ends i _ _ _ going ended others _ opens logged =>
    have stopped : (opened past).countP v.isGoing + 1 = (opened past).countP w.isGoing := by
      apply countP_stop accounts.distinct ((accounts.known i).mpr (.inl going)) going
        (State.isGoing_of_ended ended)
      intro j apart
      simp [State.isGoing, others j apart]
    simp only [opens, logged, Option.toList_some, List.countP_singleton, List.countP_nil,
      Transfer.isUpload, if_true, List.length_nil]
    omega
  | stays same opens logged =>
    have still : v.isGoing = w.isGoing := funext fun j => (same j).1
    have pulled : (transfer? past event).toList.countP Transfer.isUpload = 0 := by
      cases entry : transfer? past event with
      | none => rfl
      | some transfer => simp [(logged transfer entry).1]
    simp only [opens, still, pulled, List.countP_nil, List.length_nil]
    omega

theorem turn (turn : Turn w event v) : Accounts (past ++ [event]) v :=
  have tally := turn.tally accounts.follows
  { follows := follows_tracks.turn turn accounts.follows
    logged := accounts.logged_turn turn
    known := accounts.known_turn tally
    distinct := accounts.distinct_turn tally
    once := accounts.once_turn tally
    counted := accounts.counted_turn turn tally }

theorem run (steps : List Step) : Accounts (past ++ w.history steps) (w.after steps) := by
  induction steps generalizing past w with
  | nil => simpa [State.history, State.after] using accounts
  | cons step steps ih =>
    have next := ih (accounts.turn (step_turn w step))
    simpa [State.history, State.after] using next

end Accounts

theorem history_accounts (steps : List Step) :
    Accounts (start.history steps) (start.after steps) := accounts_start.run steps

/-- Closing an upload for the first time commits a version if and only if metadata was accepted. -/
theorem close_going (follows : Follows (trail i past) (w.handles i)) (going : w.isGoing i = true) :
    match acceptedName? (trail i past) with
    | none => (w.step (.close i)).1 = .artifact (.error Store.Refusal.closedBeforeMetadata.error) ∧
        (w.step (.close i)).2.store.versions = w.store.versions
    | some name => ∃ v ∈ (w.step (.close i)).2.store.versions, v.name = name ∧
        (w.step (.close i)).1 = .artifact (.ok v.record) := by
  obtain ⟨u, handle, unfinished⟩ := State.held_of_going going
  rw [handle] at follows
  rw [follows.1]
  cases named : u.metadata with
  | none => simp [State.step, handle, Upload.close_unnamed unfinished named, Store.log]
  | some metadata =>
    obtain ⟨named', v, member, record⟩ := Store.commit_record w.store metadata u.content
    simp only [State.step, handle, Upload.Ready.close ⟨unfinished, named⟩, Option.map_some]
    refine ⟨v, member, ?_, by rw [record]⟩
    rw [← named', ← record, Version.record_name]

theorem drop_versions (w : State) (i : Nat) :
    (w.step (.drop i)).2.store.versions = w.store.versions := by
  cases handle : w.handles i with
  | held u =>
    simp only [State.step, handle, State.store_setHandle, State.store_setStore, Upload.cancel]
    split <;> rfl
  | unused => simp [State.step, handle]
  | dropped => simp [State.step, handle]

/-- An upload that was closed refuses everything, and nothing that is asked of it shows. -/
theorem closed_refuses (follows : Follows (trail i past) (w.handles i))
    (ended : closed (trail i past) = true) (held : w.handles i ≠ .dropped) :
    (∀ frame, w.step (.send i frame) = (.done (.error Store.Refusal.uploadClosed.error), w)) ∧
    w.step (.close i) = (.artifact (.error Store.Refusal.uploadClosed.error), w) ∧
    (w.step (.drop i)).2.store = w.store := by
  cases handle : w.handles i with
  | unused =>
    rw [handle] at follows
    simp [follows.2] at ended
  | dropped => contradiction
  | held u =>
    rw [handle] at follows
    have finished : u.finished = true := follows.2.2.symm.trans ended
    have idle : w.setHandle i (.held u) = w := by rw [← handle, State.setHandle_self]
    refine ⟨fun frame => ?_, ?_, ?_⟩
    · simp [State.step, handle, Upload.send_closed finished, idle]
    · simp [State.step, handle, Upload.close_finished finished, State.setStore_self, idle]
    · simp [State.step, handle, Upload.cancel, finished]

/-- The log only grows, and at every point of every run it is the account of what clients did and
were answered. Of each upload that was opened it has one entry as soon as the upload has ended and
none before. The close that ends an upload commits a version exactly if metadata was accepted; after
it everything is refused, and nothing is logged any more. -/
theorem transfers_account_for_uploads (steps : List Step) :
    let w := start.after steps
    let past := start.history steps
    (∀ more, ∃ later, (w.after more).store.transfers = w.store.transfers ++ later) ∧
    w.store.transfers = (account [] past).map Prod.snd ∧
    ((opened past).Nodup ∧ (∀ i, i ∈ opened past ↔ w.isGoing i = true ∨ w.hasEnded i = true) ∧
      w.store.transfers.countP Transfer.isUpload + (opened past).countP w.isGoing =
        (opened past).length) ∧
    (∀ i, ((account [] past).filter fun entry => entry.1.isAbout i).length =
      if w.hasEnded i then 1 else 0) ∧
    (∀ i, w.isGoing i = true →
      (match acceptedName? (trail i past) with
      | none =>
        (w.step (.close i)).1 = .artifact (.error Store.Refusal.closedBeforeMetadata.error) ∧
          (w.step (.close i)).2.store.versions = w.store.versions
      | some name => ∃ v ∈ (w.step (.close i)).2.store.versions, v.name = name ∧
          (w.step (.close i)).1 = .artifact (.ok v.record)) ∧
      (w.step (.drop i)).2.store.versions = w.store.versions) ∧
    (∀ i, closed (trail i past) = true → w.handles i ≠ .dropped →
      (∀ frame, w.step (.send i frame) = (.done (.error Store.Refusal.uploadClosed.error), w)) ∧
      w.step (.close i) = (.artifact (.error Store.Refusal.uploadClosed.error), w) ∧
      (w.step (.drop i)).2.store = w.store) := by
  intro w past
  have accounts : Accounts past w := history_accounts steps
  refine ⟨fun more => ?_, accounts.logged,
    ⟨accounts.distinct, accounts.known, accounts.counted⟩, accounts.once, ?_, ?_⟩
  · have later := (accounts.run more).logged
    rw [account_append, List.map_append, ← accounts.logged] at later
    exact ⟨_, later⟩
  · exact fun i going => ⟨close_going (accounts.follows i) going, drop_versions w i⟩
  · exact fun i ended held => closed_refuses (accounts.follows i) ended held

end Traffic

end Depot
