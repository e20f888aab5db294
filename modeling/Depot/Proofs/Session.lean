import Depot.Proofs.Forwarding
import Depot.Proofs.Relay

/-! The life of a session. While its call is open nothing of it shows in the store; once anything
has failed the call is cancelled, and neither a relay nor a commit brings it back. -/
namespace Depot

open Framing (full remainder last)

def Reader.IsSilent (reader : Reader) : Prop :=
  reader.failure? = none ∧ reader.available = .empty

instance (reader : Reader) : Decidable reader.IsSilent := inferInstanceAs (Decidable (_ ∧ _))

def Store.Cancelled (before after : Store) : Prop :=
  ∃ name sizes, after = before.log (.upload name sizes .cancelled)

theorem Store.commit_transfers (s : Store) (metadata : UploadMetadata) (content : ByteArray) :
    (s.commit metadata content).2.transfers = s.transfers := by
  simp only [commit, addContent]
  split <;> rfl

namespace Upload

variable {u : Upload} {metadata : UploadMetadata}

@[simp] theorem send_finished (u : Upload) (frame : UploadFrame) :
    (u.send frame).2.finished = u.finished := by
  unfold send
  split
  · rfl
  · split
    · rfl
    · rfl
    · rfl
    · split <;> rfl

theorem Ready.send (ready : u.Ready metadata) (frame : UploadFrame) :
    (u.send frame).2.Ready metadata := by
  refine ⟨(send_finished u frame).trans ready.going, ?_⟩
  cases frame with
  | metadata => simp [Upload.send, ready.going, ready.named]
  | content bytes =>
    simp only [Upload.send, ready.going, ready.named]
    split
    · contradiction
    · split
      · exact ready.named
      · rfl

theorem cancel_eq (going : u.finished = false) (s : Store) :
    u.cancel s = s.log (u.transfer .cancelled) := by
  simp [Upload.cancel, going]

end Upload

namespace UploadSession

variable {σ υ : Type} (r : Registry σ υ) {session : UploadSession υ}

theorem drop_eq_abort (session : UploadSession υ) (s : σ) :
    session.drop r s = session.abort r s := by
  by_cases final : session.state.isFinal = true
  · simp only [drop, abort, fail, final, if_true]
  · simp only [drop, abort, fail, final]
    rfl

/-! ### Sessions that have no call any more -/

theorem fail_dead (dead : session.stream = none) (s : σ) :
    session.fail r s = ({ session with state := .failed }, s) := by
  cases session
  simp_all [fail]

theorem send_dead (dead : session.stream = none) (frame : UploadFrame) (context : String) (s : σ) :
    session.send r frame context s =
      (.error (.transportFailure context .uploadNotOpen), { session with state := .failed }, s) := by
  simp [send, dead, fail_dead r dead]

theorem sendFrames_dead (dead : session.stream = none) {frames : List ByteArray}
    (some : frames ≠ []) (s : σ) :
    sendFrames r frames session s =
      (.error (.transportFailure "sending content frame" .uploadNotOpen),
        { session with state := .failed }, s) := by
  cases frames with
  | nil => contradiction
  | cons frame frames => simp [sendFrames, send_dead r dead]

/-- Nothing to send is sent by any session, open or not. -/
theorem relay_silent (pos : 0 < session.frameSize) {reader : Reader} (silent : reader.IsSilent)
    (s : σ) :
    session.relay r reader s = (.ok session.bytes, { session with state := .transferring }, s) := by
  have empty : ByteArray.empty.size < session.frameSize := pos
  have ⟨noFrame, noRest⟩ := Framing.full_of_lt empty
  simp only [relay, Framing.ofReader_eq pos empty, silent.1, silent.2, ByteArray.empty_append,
    noFrame, noRest, sendFrames]
  rfl

theorem relay_dead (dead : session.stream = none) (pos : 0 < session.frameSize) {reader : Reader}
    (heard : ¬ reader.IsSilent) (s : σ) :
    ∃ error, session.relay r reader s = (.error error, { session with state := .failed }, s) := by
  have empty : ByteArray.empty.size < session.frameSize := pos
  have stillDead : { session with state := .transferring }.stream = none := dead
  simp only [relay, Framing.ofReader_eq pos empty, ByteArray.empty_append]
  by_cases framed : full session.frameSize reader.available = []
  · simp only [framed, sendFrames]
    cases ending : reader.failure? with
    | some error =>
      simp only [fail_dead r stillDead]
      exact ⟨_, rfl⟩
    | none =>
      -- No full frame and yet not silent: what was delivered is the last frame.
      have whole := Framing.join_full session.frameSize reader.available
      rw [framed, Framing.join_nil, ByteArray.empty_append] at whole
      have rest : reader.available.isEmpty ≠ true :=
        fun empty => heard ⟨ending, (Framing.isEmpty_iff _).mp empty⟩
      simp only [whole, if_neg rest, sendFrames_dead r stillDead (List.cons_ne_nil _ _)]
      exact ⟨_, rfl⟩
  · simp only [sendFrames_dead r stillDead framed]
    exact ⟨_, rfl⟩

theorem commit_dead (dead : session.stream = none) (s : σ) :
    session.commit r s = (.error (.transportFailure "finalizing upload" .uploadNotOpen), s) := by
  simp [commit, dead]

theorem abort_dead (dead : session.stream = none) (s : σ) : session.abort r s = s := by
  simp [abort, fail_dead r dead]

/-! ### What an error leaves of a session -/

/-- A session keeps its frame size, and an error takes its call away. -/
def Ends {α : Type} (session : UploadSession υ) : Except GatewayError α × UploadSession υ × σ → Prop
  | (.ok _, after, _) => after.frameSize = session.frameSize
  | (.error _, after, _) =>
    after.frameSize = session.frameSize ∧ after.stream = none ∧ after.state = .failed

theorem send_ends (session : UploadSession υ) (frame : UploadFrame) (context : String) (s : σ) :
    session.Ends (session.send r frame context s) := by
  cases held : session.stream with
  | none => simp [send, held, fail, Ends]
  | some stream => rcases sent : r.send frame stream s with ⟨_ | _, u, t⟩ <;>
      simp [send, held, sent, fail, Ends]

theorem sendFrames_ends (frames : List ByteArray) (session : UploadSession υ) (s : σ) :
    session.Ends (sendFrames r frames session s) := by
  induction frames generalizing session s with
  | nil => rfl
  | cons frame frames ih =>
    have first := send_ends r session (.content frame) "sending content frame" s
    simp only [sendFrames]
    rcases sent : session.send r (.content frame) "sending content frame" s with ⟨_ | _, after, t⟩
    · simpa [Ends, sent] using first
    · have rest := ih { after with frames := after.frames + 1, bytes := after.bytes + frame.size } t
      have same : after.frameSize = session.frameSize := by simpa [Ends, sent] using first
      simpa only [Ends, same] using rest

theorem relay_ends (session : UploadSession υ) (reader : Reader) (s : σ) :
    session.Ends (session.relay r reader s) := by
  simp only [relay]
  rcases Framing.ofReader session.frameSize .empty reader with ⟨frames, ending⟩
  have first := sendFrames_ends r frames { session with state := .transferring } s
  rcases sent : sendFrames r frames { session with state := .transferring } s with ⟨_ | _, after, t⟩
  · simpa [Ends, sent] using first
  · have same : after.frameSize = session.frameSize := by simpa [Ends, sent] using first
    cases ending with
    | broken error => simp [Ends, fail, same]
    | clean rest =>
      have second := sendFrames_ends r (if rest.isEmpty then [] else [rest]) after t
      simp only
      rcases sent : sendFrames r (if rest.isEmpty then [] else [rest]) after t with
        ⟨_ | _, ended, t⟩
      · simpa [Ends, sent, same] using second
      · simpa [Ends, sent, same] using second

/-! ### Sessions over the store -/

def IsGoing (handle : υ → Upload) (metadata : UploadMetadata) (session : UploadSession υ) : Prop :=
  ∃ u, session.stream = some u ∧ (handle u).Ready metadata

/-- What a step makes of a session that was going: it goes on and nothing shows, or its upload is
cancelled. -/
def Settles {α : Type} (view : σ → Store) (handle : υ → Upload) (metadata : UploadMetadata) (s : σ) :
    Except GatewayError α × UploadSession υ × σ → Prop
  | (.ok _, session, t) => session.IsGoing handle metadata ∧ view t = view s
  | (.error _, _, t) => (view s).Cancelled (view t)

variable {r} {view : σ → Store} {handle : υ → Upload} {metadata : UploadMetadata}

theorem fail_held (forwards : r.Forwards Store.registry view handle) {u : υ}
    (held : session.stream = some u) (going : (handle u).finished = false) (s : σ) :
    view (session.fail r s).2 = (view s).log ((handle u).transfer .cancelled) := by
  have cancelled := forwards.cancel u s
  simp only [fail, held, cancelled]
  exact Upload.cancel_eq going (view s)

theorem fail_going (forwards : r.Forwards Store.registry view handle) {u : υ}
    (held : session.stream = some u) (going : (handle u).finished = false) (s : σ) :
    (view s).Cancelled (view (session.fail r s).2) := ⟨_, _, fail_held forwards held going s⟩

/-- A send, whatever is answered, shows only in the upload. -/
theorem forwarded_send (forwards : r.Forwards Store.registry view handle) (frame : UploadFrame)
    (u : υ) (s : σ) :
    view (r.send frame u s).2.2 = view s ∧
      (Fails (r.send frame u s).1 ∧ handle (r.send frame u s).2.1 = handle u ∨
        (r.send frame u s).1 = ((handle u).send frame).1 ∧
          handle (r.send frame u s).2.1 = ((handle u).send frame).2) := by
  rcases forwards.send frame u s with ⟨failed, kept⟩ | ⟨answered, kept⟩
  · have ⟨sameUpload, sameStore⟩ := Prod.mk.inj kept
    exact ⟨sameStore, .inl ⟨failed, sameUpload⟩⟩
  · have ⟨sameUpload, sameStore⟩ := Prod.mk.inj kept
    exact ⟨sameStore, .inr ⟨answered, sameUpload⟩⟩

theorem send_settles (forwards : r.Forwards Store.registry view handle)
    (going : session.IsGoing handle metadata) (frame : UploadFrame) (context : String) (s : σ) :
    Settles view handle metadata s (session.send r frame context s) := by
  obtain ⟨u, held, ready⟩ := going
  obtain ⟨same, sent⟩ := forwarded_send forwards frame u s
  have stillReady : (handle (r.send frame u s).2.1).Ready metadata := by
    rcases sent with ⟨_, kept⟩ | ⟨_, taken⟩
    · exact kept ▸ ready
    · exact taken ▸ ready.send frame
  simp only [send, held]
  rcases answer : r.send frame u s with ⟨_ | _, v, t⟩
  · simp only [answer] at same stillReady
    rw [Settles, ← same]
    exact fail_going forwards rfl stillReady.going t
  · simp only [answer] at same stillReady
    exact ⟨⟨v, rfl, stillReady⟩, same⟩

theorem sendFrames_settles (forwards : r.Forwards Store.registry view handle)
    (going : session.IsGoing handle metadata) (frames : List ByteArray) (s : σ) :
    Settles view handle metadata s (sendFrames r frames session s) := by
  induction frames generalizing session s with
  | nil => exact ⟨going, rfl⟩
  | cons frame frames ih =>
    have first := send_settles forwards going (.content frame) "sending content frame" s
    simp only [sendFrames]
    rcases sent : session.send r (.content frame) "sending content frame" s with ⟨_ | _, after, t⟩
    · rwa [sent] at first
    · rw [sent] at first
      have stillGoing : { after with
          frames := after.frames + 1, bytes := after.bytes + frame.size }.IsGoing handle metadata :=
        first.1
      have rest := ih stillGoing t
      simpa only [Settles, first.2] using rest

theorem relay_settles (forwards : r.Forwards Store.registry view handle)
    (going : session.IsGoing handle metadata) (reader : Reader) (s : σ) :
    Settles view handle metadata s (session.relay r reader s) := by
  simp only [relay]
  rcases Framing.ofReader session.frameSize .empty reader with ⟨frames, ending⟩
  have stillGoing : { session with state := .transferring }.IsGoing handle metadata := going
  have first := sendFrames_settles forwards stillGoing frames s
  rcases sent : sendFrames r frames { session with state := .transferring } s with ⟨_ | _, after, t⟩
  · rwa [sent] at first
  · rw [sent] at first
    obtain ⟨⟨u, held, ready⟩, same⟩ := first
    cases ending with
    | broken error =>
      rw [Settles, ← same]
      exact fail_going forwards held ready.going t
    | clean rest =>
      have second := sendFrames_settles forwards ⟨u, held, ready⟩
        (if rest.isEmpty then [] else [rest]) t
      simp only
      rcases sent : sendFrames r (if rest.isEmpty then [] else [rest]) after t with
        ⟨_ | _, ended, t⟩
      · simpa only [sent, Settles, same] using second
      · simpa only [sent, Settles, same] using second

theorem abort_going (forwards : r.Forwards Store.registry view handle)
    (going : session.IsGoing handle metadata) (s : σ) : (view s).Cancelled (view (session.abort r s)) := by
  obtain ⟨u, held, ready⟩ := going
  exact fail_going forwards held ready.going s

/-- A call that opens is a new upload behind the wrapper, where nothing shows of it. -/
theorem forwarded_open (forwards : r.Forwards Store.registry view handle) (s : σ) :
    view (r.openUpload s).2 = view s ∧ ∀ u, (r.openUpload s).1 = .ok u → handle u = {} := by
  rcases forwards.openUpload s with ⟨⟨error, failed⟩, kept⟩ | ⟨answered, kept⟩
  · refine ⟨kept, fun u opened => ?_⟩
    simp [opened, Except.map] at failed
  · refine ⟨kept, fun u opened => ?_⟩
    simpa [opened, Except.map, Store.registry] using answered

/-- Only a call that opened leaves an entry when the session does not begin. -/
theorem begin_settles (forwards : r.Forwards Store.registry view handle) (size : Nat)
    (metadata : UploadMetadata) (s : σ) :
    match begin r size metadata s with
    | (.ok session, t) => ¬ Fails (r.openUpload s).1 ∧ session.IsGoing handle metadata ∧
        session.frameSize = size ∧ view t = view s
    | (.error _, t) => (Fails (r.openUpload s).1 → view t = view s) ∧
        (¬ Fails (r.openUpload s).1 → (view s).Cancelled (view t)) := by
  obtain ⟨same, fresh⟩ := forwarded_open forwards s
  rcases opened : r.openUpload s with ⟨_ | u, t⟩
  · simpa [begin, opened] using same
  · have unsent : handle u = {} := fresh u (by rw [opened])
    have sameStore : view t = view s := by simpa [opened] using same
    obtain ⟨kept, sent⟩ := forwarded_send forwards (.metadata metadata) u t
    rcases answer : r.send (.metadata metadata) u t with ⟨_ | _, v, w⟩
    · simp only [answer, unsent] at kept sent
      have going : (handle v).finished = false := by
        rcases sent with ⟨_, same⟩ | ⟨_, same⟩
        · rw [same]
        · rw [same, Upload.send_finished]
      simp only [begin, opened, send, answer]
      rw [← sameStore, ← kept]
      exact ⟨fun failed => absurd failed (not_fails_ok u), fun _ => fail_going forwards rfl going w⟩
    · simp only [answer, unsent] at kept sent
      have ready : (handle v).Ready metadata := by
        rcases sent with ⟨⟨error, impossible⟩, _⟩ | ⟨_, same⟩
        · contradiction
        · rw [same]
          exact ⟨rfl, rfl⟩
      simp only [begin, opened, send, answer]
      exact ⟨not_fails_ok u, ⟨v, rfl, ready⟩, trivial, kept.trans sameStore⟩

/-- A session that is going commits all that was sent, or its upload is cancelled. -/
theorem commit_held (forwards : r.Forwards Store.registry view handle) {u : υ}
    (held : session.stream = some u) (ready : (handle u).Ready metadata) (s : σ) :
    match session.commit r s with
    | (.ok artifact, t) => (artifact, view t) =
        (((view s).commit metadata (handle u).content).1,
          ((view s).commit metadata (handle u).content).2.log ((handle u).transfer .committed))
    | (.error _, t) => view t = (view s).log ((handle u).transfer .cancelled) := by
  have closed := forwards.close u s
  simp only [commit, held]
  rcases answer : r.close u s with ⟨result, v, t⟩
  simp only [answer] at closed
  have cancelled := forwards.cancel v t
  rcases closed with ⟨⟨error, failed⟩, kept⟩ | ⟨answered, kept⟩
  · obtain ⟨sameUpload, sameStore⟩ := Prod.mk.inj kept
    simp only at failed
    subst failed
    rw [sameUpload, sameStore] at cancelled
    simp only [cancelled]
    exact Upload.cancel_eq ready.going (view s)
  · simp only [Store.registry, ready.close] at answered kept
    obtain ⟨sameUpload, sameStore⟩ := Prod.mk.inj kept
    subst answered
    rw [sameUpload, sameStore] at cancelled
    simp [cancelled, Store.registry, Upload.cancel]

theorem commit_settles (forwards : r.Forwards Store.registry view handle)
    (going : session.IsGoing handle metadata) (s : σ) :
    match session.commit r s with
    | (.ok _, t) => ∃ content sizes, view t = ((view s).commit metadata content).2.log
        (.upload (some metadata.name) sizes .committed)
    | (.error _, t) => (view s).Cancelled (view t) := by
  obtain ⟨u, held, ready⟩ := going
  have ended := commit_held forwards held ready s
  rcases answer : session.commit r s with ⟨_ | artifact, t⟩
  · rw [answer] at ended
    exact ⟨_, _, ended⟩
  · rw [answer] at ended
    refine ⟨(handle u).content, (handle u).frames.toList.map ByteArray.size, ?_⟩
    simpa [Upload.transfer, ready.named] using congrArg Prod.snd ended

end UploadSession

end Depot
