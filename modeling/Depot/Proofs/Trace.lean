import Depot.Proofs.Serialisation
import Depot.Proofs.Session
import Depot.Proofs.Versions

/-! What clients see. A trace is what they did and were answered, in order; it says of each upload
which frames were accepted and whether it was closed, and of each call what it leaves in the log.
A turn is what one step can be answered and can do; what holds between an upload and its part of
the trace at every turn holds in every run. -/
namespace Depot

namespace UploadFrame

def name? : UploadFrame → Option QualifiedName
  | .metadata ⟨name, _⟩ => some name
  | .content _ => none

def size? : UploadFrame → Option Nat
  | .metadata _ => none
  | .content bytes => some bytes.size

end UploadFrame

namespace Upload

variable {u : Upload}

theorem close_finished (finished : u.finished = true) (s : Store) :
    u.close s = (.error Store.Refusal.uploadClosed.error, u, s) := by
  simp [close, finished]

theorem close_unnamed (going : u.finished = false) (unnamed : u.metadata = none) (s : Store) :
    u.close s = (.error Store.Refusal.closedBeforeMetadata.error, { u with finished := true },
      s.log (u.transfer .rejected)) := by
  simp [close, going, unnamed]

inductive Refuses (u : Upload) : UploadFrame → Store.Refusal → Prop where
  | closed (finished : u.finished = true) (frame : UploadFrame) : Refuses u frame .uploadClosed
  | repeated {first : UploadMetadata} (going : u.finished = false) (named : u.metadata = some first)
      (again : UploadMetadata) : Refuses u (.metadata again) .metadataRepeated
  | early (going : u.finished = false) (unnamed : u.metadata = none) (bytes : ByteArray) :
      Refuses u (.content bytes) .contentBeforeMetadata
  | large {metadata : UploadMetadata} {bytes : ByteArray} (going : u.finished = false)
      (named : u.metadata = some metadata) (large : messageCeiling < bytes.size) :
      Refuses u (.content bytes) (.frameTooLarge bytes.size)

/-- Everything that a frame can be answered and can do to its upload. -/
inductive Sent (u : Upload) : UploadFrame → Except RegistryError Unit → Upload → Prop where
  | named (going : u.finished = false) (unnamed : u.metadata = none) (metadata : UploadMetadata) :
      Sent u (.metadata metadata) (.ok ()) { u with metadata := some metadata }
  | extended {metadata : UploadMetadata} {bytes : ByteArray} (going : u.finished = false)
      (named : u.metadata = some metadata) (small : bytes.size ≤ messageCeiling) :
      Sent u (.content bytes) (.ok ()) { u with frames := u.frames.push bytes }
  | refused {frame : UploadFrame} {refusal : Store.Refusal} (refuses : u.Refuses frame refusal) :
      Sent u frame (.error refusal.error) u

theorem Refuses.send {frame : UploadFrame} {refusal : Store.Refusal}
    (refuses : u.Refuses frame refusal) : u.send frame = (.error refusal.error, u) := by
  cases refuses with
  | closed finished => simp [Upload.send, finished]
  | repeated going named => simp [Upload.send, going, named]
  | early going unnamed => simp [Upload.send, going, unnamed]
  | large going named large => simp [Upload.send, going, named, large]

theorem send_closed (finished : u.finished = true) (frame : UploadFrame) :
    u.send frame = (.error Store.Refusal.uploadClosed.error, u) :=
  (Refuses.closed finished frame).send

theorem send_sent (u : Upload) (frame : UploadFrame) :
    u.Sent frame (u.send frame).1 (u.send frame).2 := by
  have stays {refusal : Store.Refusal} (refuses : u.Refuses frame refusal) :
      u.Sent frame (u.send frame).1 (u.send frame).2 := by
    rw [refuses.send]
    exact .refused refuses
  cases finished : u.finished with
  | true => exact stays (.closed finished frame)
  | false =>
    cases frame with
    | metadata metadata =>
      cases named : u.metadata with
      | some first => exact stays (.repeated finished named metadata)
      | none => simpa [send, finished, named] using Sent.named finished named metadata
    | content bytes =>
      cases named : u.metadata with
      | none => exact stays (.early finished named bytes)
      | some metadata =>
        by_cases large : messageCeiling < bytes.size
        · exact stays (.large finished named large)
        · have taken := Sent.extended finished named (Nat.not_lt.mp large)
          simpa [send, finished, named, large] using taken

/-- What an accepted frame adds to an upload. -/
theorem send_accepted {v : Upload} {frame : UploadFrame} (sent : u.send frame = (.ok (), v)) :
    u.finished = false ∧ v.finished = false ∧
      v.metadata.map (·.name) = (u.metadata.map (·.name)).or frame.name? ∧
      v.frames.toList.map ByteArray.size =
        u.frames.toList.map ByteArray.size ++ frame.size?.toList ∧
      (∀ metadata, frame = .metadata metadata → u.metadata = none) := by
  have turn := u.send_sent frame
  rw [sent] at turn
  cases turn with
  | named going unnamed => simp [going, unnamed, UploadFrame.name?, UploadFrame.size?]
  | extended going named => simp [going, named, UploadFrame.name?, UploadFrame.size?]

theorem Sent.same {v : Upload} {frame : UploadFrame} {answer : Except RegistryError Unit}
    (turn : u.Sent frame answer v) (refused : Fails answer) : v = u := by
  cases turn with
  | named | extended => simp at refused
  | refused => rfl

theorem send_refused {frame : UploadFrame} (refused : Fails (u.send frame).1) :
    (u.send frame).2 = u := (u.send_sent frame).same refused

end Upload

namespace Traffic

/-- What clients did and what they were answered, in order. -/
abbrev Trace := List (Step × Answer)

def trail (i : Nat) (past : Trace) : Trace := past.filter fun event => event.1.isAbout i

def accepted (t : Trace) : List UploadFrame :=
  t.filterMap fun
    | (.send _ frame, .done (.ok ())) => some frame
    | _ => none

def acceptedName? (t : Trace) : Option QualifiedName := (accepted t).findSome? UploadFrame.name?

def acceptedSizes (t : Trace) : List Nat := (accepted t).filterMap UploadFrame.size?

/-- An upload was closed, whatever that was answered. -/
def closed (t : Trace) : Bool :=
  t.any fun
    | (.close _, .artifact _) => true
    | _ => false

def opened (past : Trace) : List Nat :=
  past.filterMap fun
    | (.openUpload i, .done (.ok ())) => some i
    | _ => none

/-- The entry that a call leaves in the log when it ends, by what had been answered before. -/
def transfer? (past : Trace) : Step × Answer → Option Transfer
  | (.close i, .artifact _) =>
    let t := trail i past
    let outcome := if (acceptedName? t).isSome then .committed else .rejected
    if closed t then none else some (.upload (acceptedName? t) (acceptedSizes t) outcome)
  | (.drop i, .done (.ok ())) =>
    let t := trail i past
    if closed t then none else some (.upload (acceptedName? t) (acceptedSizes t) .cancelled)
  | (.pull id, .content (.ok frames)) => some (.pull id (frames.map ByteArray.size))
  | _ => none

theorem trail_snoc (i : Nat) (past : Trace) (event : Step × Answer) :
    trail i (past ++ [event]) = trail i past ++ if event.1.isAbout i then [event] else [] := by
  simp [trail, List.filter_cons]

section Trail

variable (s t : Trace)

theorem accepted_append : accepted (s ++ t) = accepted s ++ accepted t := List.filterMap_append

theorem acceptedName?_append : acceptedName? (s ++ t) = (acceptedName? s).or (acceptedName? t) := by
  rw [acceptedName?, accepted_append, List.findSome?_append]
  rfl

theorem acceptedSizes_append : acceptedSizes (s ++ t) = acceptedSizes s ++ acceptedSizes t := by
  rw [acceptedSizes, accepted_append, List.filterMap_append]
  rfl

theorem closed_append : closed (s ++ t) = (closed s || closed t) := List.any_append

theorem opened_append : opened (s ++ t) = opened s ++ opened t := List.filterMap_append

end Trail

variable {past : Trace} {event : Step × Answer} {i : Nat}

theorem trail_other (apart : event.1.isAbout i = false) :
    trail i (past ++ [event]) = trail i past := by
  simp [trail_snoc, apart]

theorem trail_same (about : event.1.isAbout i = true) :
    trail i (past ++ [event]) = trail i past ++ [event] := by
  simp [trail_snoc, about]

/-! ### What a step can do -/

inductive Turn (w : State) : Step × Answer → State → Prop where
  | opened {i : Nat} (unused : w.handles i = .unused) :
      Turn w (.openUpload i, .done (.ok ())) (w.setHandle i (.held {}))
  | accepted {i : Nat} {u v : Upload} {frame : UploadFrame} (held : w.handles i = .held u)
      (sent : u.send frame = (.ok (), v)) :
      Turn w (.send i frame, .done (.ok ())) (w.setHandle i (.held v))
  | closed {i : Nat} {u : Upload} {s : Store} {answer : Except RegistryError Artifact}
      {outcome : UploadOutcome} (held : w.handles i = .held u) (going : u.finished = false)
      (outcome_eq : outcome = if u.metadata.isSome then .committed else .rejected)
      (logged : s.transfers = w.store.transfers ++ [u.transfer outcome]) :
      Turn w (.close i, .artifact answer)
        ((w.setStore s).setHandle i (.held { u with finished := true }))
  | cancelled {i : Nat} {u : Upload} (held : w.handles i = .held u) (going : u.finished = false) :
      Turn w (.drop i, .done (.ok ()))
        ((w.setStore (w.store.log (u.transfer .cancelled))).setHandle i .dropped)
  | released {i : Nat} {u : Upload} (held : w.handles i = .held u) (finished : u.finished = true) :
      Turn w (.drop i, .done (.ok ())) (w.setHandle i .dropped)
  | closedAgain {i : Nat} {u : Upload} {answer : Except RegistryError Artifact}
      (held : w.handles i = .held u) (finished : u.finished = true) :
      Turn w (.close i, .artifact answer) w
  | pulled {id : Identifier} {frames : List ByteArray} {s : Store}
      (logged : s.transfers = w.store.transfers ++ [.pull id (frames.map ByteArray.size)]) :
      Turn w (.pull id, .content (.ok frames)) (w.setStore s)
  | unnoticed {event : Step × Answer} {s : Store} (logged : s.transfers = w.store.transfers)
      (nothing : ∀ past, transfer? past event = none) (none_opened : Traffic.opened [event] = [])
      (none_accepted : Traffic.accepted [event] = [])
      (none_closed : Traffic.closed [event] = false) :
      Turn w event (w.setStore s)

/-- A step on an upload that the client does not hold. -/
theorem Turn.absent (w : State) (step : Step) : Turn w (step, .noUpload) w :=
  .unnoticed (s := w.store) rfl (by cases step <;> exact fun _ => rfl) (by cases step <;> rfl)
    (by cases step <;> rfl) (by cases step <;> rfl)

theorem send_turn {w : State} {i : Nat} {u : Upload} (held : w.handles i = .held u)
    (frame : UploadFrame) :
    Turn w (.send i frame, .done (u.send frame).1) (w.setHandle i (.held (u.send frame).2)) := by
  rcases sent : u.send frame with ⟨error | _, v⟩
  · have refused : Fails (u.send frame).1 := by simp [sent]
    have same := Upload.send_refused refused
    rw [sent] at same
    rw [show v = u from same, ← held, State.setHandle_self]
    exact .unnoticed (s := w.store) rfl (fun _ => rfl) rfl rfl rfl
  · exact .accepted held sent

theorem close_turn {w : State} {i : Nat} {u : Upload} (held : w.handles i = .held u) :
    Turn w (.close i, .artifact (u.close w.store).1)
      ((w.setStore (u.close w.store).2.2).setHandle i (.held (u.close w.store).2.1)) := by
  cases finished : u.finished with
  | true =>
    have same : (w.setStore w.store).setHandle i (.held u) = w := by
      rw [← held, State.setStore_self, State.setHandle_self]
    simp only [Upload.close_finished finished, same]
    exact .closedAgain held finished
  | false =>
    cases named : u.metadata with
    | none =>
      rw [Upload.close_unnamed finished named]
      have outcome : UploadOutcome.rejected =
          if u.metadata.isSome then .committed else .rejected := by simp [named]
      exact .closed held finished outcome rfl
    | some metadata =>
      rw [Upload.Ready.close ⟨finished, named⟩]
      have outcome : UploadOutcome.committed =
          if u.metadata.isSome then .committed else .rejected := by simp [named]
      have logged : ((w.store.commit metadata u.content).2.log (u.transfer .committed)).transfers =
          w.store.transfers ++ [u.transfer .committed] := by
        rw [Store.log, Store.commit_transfers]
      exact .closed held finished outcome logged

theorem drop_turn {w : State} {i : Nat} {u : Upload} (held : w.handles i = .held u) :
    Turn w (.drop i, .done (.ok ())) ((w.setStore (u.cancel w.store)).setHandle i .dropped) := by
  cases finished : u.finished with
  | true =>
    simp only [Upload.cancel, finished, if_true]
    exact .released held finished
  | false =>
    simp only [Upload.cancel, finished]
    exact .cancelled held finished

theorem step_turn (w : State) (step : Step) : Turn w (step, (w.step step).1) (w.step step).2 := by
  cases step with
  | openUpload i =>
    cases handle : w.handles i with
    | unused => simpa [State.step, handle] using Turn.opened handle
    | held u => simpa [State.step, handle] using Turn.absent w (.openUpload i)
    | dropped => simpa [State.step, handle] using Turn.absent w (.openUpload i)
  | send i frame =>
    cases handle : w.handles i with
    | unused => simpa [State.step, handle] using Turn.absent w (.send i frame)
    | held u => simpa [State.step, handle] using send_turn handle frame
    | dropped => simpa [State.step, handle] using Turn.absent w (.send i frame)
  | close i =>
    cases handle : w.handles i with
    | unused => simpa [State.step, handle] using Turn.absent w (.close i)
    | held u => simpa [State.step, handle] using close_turn handle
    | dropped => simpa [State.step, handle] using Turn.absent w (.close i)
  | drop i =>
    cases handle : w.handles i with
    | unused => simpa [State.step, handle] using Turn.absent w (.drop i)
    | held u => simpa [State.step, handle] using drop_turn handle
    | dropped => simpa [State.step, handle] using Turn.absent w (.drop i)
  | pull id =>
    cases found : Versions.resolve w.store.versions id with
    | none =>
      simp only [State.step, Store.pull, found]
      exact .unnoticed rfl (fun _ => rfl) rfl rfl rfl
    | some v =>
      simp only [State.step, Store.pull, found]
      exact .pulled rfl
  | get id => exact .unnoticed (s := w.store) rfl (fun _ => rfl) rfl rfl rfl
  | query q => exact .unnoticed (s := w.store) rfl (fun _ => rfl) rfl rfl rfl
  | delete id =>
    refine .unnoticed ?_ (fun _ => rfl) rfl rfl rfl
    unfold Store.delete
    split <;> rfl
  | addTag r =>
    refine .unnoticed ?_ (fun _ => rfl) rfl rfl rfl
    unfold Store.addTag
    split
    · rfl
    · split <;> rfl
  | removeTag r =>
    refine .unnoticed ?_ (fun _ => rfl) rfl rfl rfl
    unfold Store.removeTag
    split
    · rfl
    · split <;> rfl
  | clock now => exact .unnoticed rfl (fun _ => rfl) rfl rfl rfl

/-! ### What the trace says of an upload -/

/-- Something that holds between an upload and its part of the trace, whatever happens to it. -/
structure Tracks (holds : Trace → Handle → Prop) : Prop where
  fresh : holds [] .unused
  quiet {t : Trace} {h : Handle} {event : Step × Answer} : holds t h → accepted [event] = [] →
    closed [event] = false → holds (t ++ [event]) h
  opened {t : Trace} (i : Nat) :
    holds t .unused → holds (t ++ [(.openUpload i, .done (.ok ()))]) (.held {})
  accepted {t : Trace} {u v : Upload} {frame : UploadFrame} (i : Nat) : holds t (.held u) →
    u.send frame = (.ok (), v) → holds (t ++ [(.send i frame, .done (.ok ()))]) (.held v)
  closed {t : Trace} {u : Upload} (i : Nat) (answer : Except RegistryError Artifact) :
    holds t (.held u) →
      holds (t ++ [(.close i, .artifact answer)]) (.held { u with finished := true })
  dropped (t : Trace) : holds t .dropped

namespace Tracks

variable {holds : Trace → Handle → Prop} {w v : State}

/-- A turn about one upload leaves the others as they are. -/
theorem setHandle {h : Handle} (held : ∀ j, holds (trail j past) (w.handles j))
    (about : event.1.upload? = some i) (turned : holds (trail i past ++ [event]) h) (s : Store)
    (j : Nat) : holds (trail j (past ++ [event])) (((w.setStore s).setHandle i h).handles j) := by
  by_cases same : j = i
  · subst same
    rw [State.handles_setHandle_same, trail_same ((event.1.isAbout_iff j).mpr about)]
    exact turned
  · have apart : event.1.isAbout j = false := by simp [Step.isAbout, about, Ne.symm same]
    rw [State.handles_setHandle_other same, State.handles_setStore, trail_other apart]
    exact held j

theorem turn (tracks : Tracks holds) (turn : Turn w event v)
    (before : ∀ i, holds (trail i past) (w.handles i)) (j : Nat) :
    holds (trail j (past ++ [event])) (v.handles j) := by
  have of {i : Nat} {h : Handle} (handle : w.handles i = h) : holds (trail i past) h :=
    handle ▸ before i
  cases turn with
  | @opened i unused => exact setHandle before rfl (tracks.opened i (of unused)) w.store j
  | @accepted i _ _ _ held sent =>
    exact setHandle before rfl (tracks.accepted i (of held) sent) w.store j
  | @closed i _ s answer _ held _ _ _ =>
    exact setHandle before rfl (tracks.closed i answer (of held)) s j
  | cancelled held _ => exact setHandle (h := .dropped) before rfl (tracks.dropped _) _ j
  | released held _ => exact setHandle (h := .dropped) before rfl (tracks.dropped _) w.store j
  | @closedAgain i u answer held finished =>
    have after := tracks.closed i answer (of held)
    rw [← finished, ← held] at after
    have idle := setHandle before rfl after w.store j
    rwa [State.setStore_self, State.setHandle_self] at idle
  | pulled logged =>
    rw [trail_other rfl]
    exact before j
  | unnoticed logged nothing none_opened none_accepted none_closed =>
    rw [State.handles_setStore, trail_snoc]
    split
    · exact tracks.quiet (before j) none_accepted none_closed
    · simpa using before j

theorem after (tracks : Tracks holds) (steps : List Step)
    (before : ∀ i, holds (trail i past) (w.handles i)) (i : Nat) :
    holds (trail i (past ++ w.history steps)) ((w.after steps).handles i) := by
  induction steps generalizing past w with
  | nil => simpa [State.history, State.after] using before i
  | cons step steps ih =>
    have next := ih (tracks.turn (step_turn w step) before)
    simpa [State.history, State.after] using next

theorem run (tracks : Tracks holds) (steps : List Step) (i : Nat) :
    holds (trail i (start.history steps)) ((start.after steps).handles i) := by
  have before (i : Nat) : holds (trail i []) (start.handles i) := tracks.fresh
  exact tracks.after steps before i

end Tracks

end Traffic

end Depot
