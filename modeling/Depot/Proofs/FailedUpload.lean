import Depot.Proofs.Session
import Depot.Proofs.StoreInvariant

/-! An upload that failed commits nothing. Whatever is done with a session after one of its calls
failed, its upload stays cancelled; only the label of the session may change, when there was nothing
to relay. -/
namespace Depot.UploadSession

variable {σ υ : Type}

/-- Relays readers one after the other, whatever is answered. Each stands beside its answer. -/
def relayAll (r : Registry σ υ) : List Reader → UploadSession υ → σ →
    List (Reader × Except GatewayError Nat) × UploadSession υ × σ
  | [], session, s => ([], session, s)
  | reader :: readers, session, s =>
    let (answer, session, s) := session.relay r reader s
    let (answers, session, s) := relayAll r readers session s
    ((reader, answer) :: answers, session, s)

variable {r : Registry σ υ} {session : UploadSession υ}

/-- What a session answers that has no call any more. -/
theorem relayAll_dead (dead : session.stream = none) (pos : 0 < session.frameSize)
    (readers : List Reader) (s : σ) :
    ∃ answers state, relayAll r readers session s = (answers, { session with state }, s) ∧
      ∀ entry ∈ answers, ¬ entry.1.IsSilent → Fails entry.2 := by
  induction readers generalizing session with
  | nil => exact ⟨[], session.state, rfl, by simp⟩
  | cons reader readers ih =>
    by_cases silent : reader.IsSilent
    · have stillDead : { session with state := .transferring }.stream = none := dead
      obtain ⟨answers, state, relayed, failing⟩ := ih stillDead pos
      refine ⟨(reader, .ok session.bytes) :: answers, state, ?_, ?_⟩
      · simp only [relayAll, relay_silent r pos silent, relayed]
      · exact List.forall_mem_cons.mpr ⟨fun heard => absurd silent heard, failing⟩
    · obtain ⟨error, answered⟩ := relay_dead r dead pos silent s
      have stillDead : { session with state := .failed }.stream = none := dead
      obtain ⟨answers, state, relayed, failing⟩ := ih stillDead pos
      refine ⟨(reader, .error error) :: answers, state, ?_, ?_⟩
      · simp only [relayAll, answered, relayed]
      · exact List.forall_mem_cons.mpr ⟨fun _ => fails_error error, failing⟩

/-- A relay that failed takes the call away for ever: no later relay reaches the registry, and each
fails unless its reader has nothing to deliver. The label alone does not tell, since a relay of
nothing sets it back. -/
theorem failed_relay_is_final (r : Registry σ υ) {session : UploadSession υ}
    (pos : 0 < session.frameSize) {broken : Reader} {s : σ}
    (failed : Fails (session.relay r broken s).1) (readers : List Reader) (reader : Reader) :
    let (_, after, t) := session.relay r broken s
    let (_, later, u) := relayAll r readers after t
    let (answer, last, w) := later.relay r reader u
    after.state = .failed ∧ u = t ∧ w = t ∧ last.stream = none ∧
      (reader.IsSilent → answer = .ok after.bytes ∧ last.state = .transferring) ∧
      (¬ reader.IsSilent → Fails answer ∧ last.state = .failed) := by
  have ended := relay_ends r session broken s
  rcases answered : session.relay r broken s with ⟨_ | _, after, t⟩
  · simp only [answered, Ends] at ended
    obtain ⟨sameSize, dead, label⟩ := ended
    have pos : 0 < after.frameSize := sameSize ▸ pos
    obtain ⟨answers, state, relayed, _⟩ := relayAll_dead (r := r) dead pos readers t
    simp only [relayed]
    have stillDead : { after with state }.stream = none := dead
    have stillPos : 0 < { after with state }.frameSize := pos
    by_cases silent : reader.IsSilent
    · simp only [relay_silent r stillPos silent]
      exact ⟨label, trivial, trivial, dead, fun _ => ⟨trivial, trivial⟩,
        fun heard => absurd silent heard⟩
    · obtain ⟨error, failed⟩ := relay_dead r stillDead stillPos silent t
      simp only [failed]
      exact ⟨label, trivial, trivial, dead, fun quiet => absurd quiet silent,
        fun _ => ⟨fails_error error, trivial⟩⟩
  · simp [answered] at failed

def brokenSession : UploadSession Upload := opened 4 ⟨Traffic.toolName, ["v1"]⟩

theorem broken_session_stays_cancelled :
    let (_, after, s) := brokenSession.relay Store.registry [.failure (.stream .reset "gone")] {}
    let (answer, last, t) := after.relay Store.registry [.data .empty, .data "a".toUTF8] s
    after.state = .failed ∧ Fails answer ∧ last.state = .failed ∧ t = s := by
  have failed : Fails (brokenSession.relay Store.registry
      [.failure (.stream .reset "gone")] {}).1 := ⟨_, rfl⟩
  have final := failed_relay_is_final Store.registry (by decide) failed []
    [.data .empty, .data "a".toUTF8]
  obtain ⟨label, _, kept, _, _, fails⟩ := final
  exact ⟨label, (fails (by decide)).1, (fails (by decide)).2, kept⟩

/-- The label of a failed session is not final: relaying nothing succeeds and sets it back. -/
theorem silent_relay_lifts_failure :
    begin Store.registry 4 ⟨Traffic.toolName, ["v1"]⟩ {} = (.ok brokenSession, {}) ∧
    let (first, after, s) := brokenSession.relay Store.registry [.failure (.stream .reset "gone")] {}
    let (second, last, _) := after.relay Store.registry [] s
    Fails first ∧ after.state = .failed ∧ second = .ok 0 ∧ last.state = .transferring :=
  ⟨rfl, ⟨_, rfl⟩, rfl, rfl, rfl⟩

/-! ### A session from its first call to its last -/

inductive Finish where
  | commit
  | abort
  | drop
  deriving DecidableEq

/-- Only a client that commits is answered. -/
def finish (r : Registry σ υ) (ending : Finish) (session : UploadSession υ) (s : σ) :
    Option (Except GatewayError Artifact) × σ :=
  match ending with
  | .commit =>
    let (answer, s) := session.commit r s
    (some answer, s)
  | .abort => (none, session.abort r s)
  | .drop => (none, session.drop r s)

structure Answers where
  begun : Except GatewayError Unit
  relayed : List (Reader × Except GatewayError Nat) := []
  committed : Option (Except GatewayError Artifact) := none

/-- Begins a session, relays readers whatever is answered, and ends it. What does not begin is over. -/
def run (r : Registry σ υ) (size : Nat) (metadata : UploadMetadata) (readers : List Reader)
    (ending : Finish) (s : σ) : Answers × σ :=
  match begin r size metadata s with
  | (.error error, s) => ({ begun := .error error }, s)
  | (.ok session, s) =>
    let (relayed, session, s) := relayAll r readers session s
    let (committed, s) := finish r ending session s
    ({ begun := .ok (), relayed, committed }, s)

variable {view : σ → Store} {handle : υ → Upload} {metadata : UploadMetadata}

/-- The session is still going and no relay failed, or one did and the upload is cancelled. -/
theorem relayAll_settles (forwards : r.Forwards Store.registry view handle)
    (going : session.IsGoing handle metadata) (pos : 0 < session.frameSize)
    (readers : List Reader) (s : σ) :
    let (answers, after, t) := relayAll r readers session s
    ((∀ entry ∈ answers, ¬ Fails entry.2) ∧ after.IsGoing handle metadata ∧ view t = view s ∨
      (∃ entry ∈ answers, Fails entry.2) ∧ after.stream = none ∧ (view s).Cancelled (view t)) ∧
    answers.Pairwise fun earlier later => Fails earlier.2 → ¬ later.1.IsSilent → Fails later.2 := by
  induction readers generalizing session s with
  | nil => exact ⟨.inl ⟨by simp, going, rfl⟩, .nil⟩
  | cons reader readers ih =>
    have settled := relay_settles forwards going reader s
    have ended := relay_ends r session reader s
    simp only [relayAll]
    rcases answered : session.relay r reader s with ⟨error | total, after, t⟩
    · simp only [answered, Settles, Ends] at settled ended
      obtain ⟨sameSize, dead, _⟩ := ended
      obtain ⟨answers, state, relayed, failing⟩ := relayAll_dead (r := r) dead (sameSize ▸ pos) readers t
      simp only [relayed]
      refine ⟨.inr ⟨⟨_, List.mem_cons_self, fails_error error⟩, dead, settled⟩, ?_⟩
      refine List.pairwise_cons.mpr ⟨fun entry member _ => failing entry member, ?_⟩
      exact List.pairwise_of_forall_mem_list fun _ _ later member _ => failing later member
    · simp only [answered, Settles, Ends] at settled ended
      obtain ⟨stillGoing, same⟩ := settled
      obtain ⟨outcome, ordered⟩ := ih stillGoing (ended ▸ pos) t
      refine ⟨?_, List.pairwise_cons.mpr ⟨fun _ _ failed => absurd failed (not_fails_ok total), ordered⟩⟩
      rcases outcome with ⟨fine, going, kept⟩ | ⟨⟨entry, member, failed⟩, dead, cancelled⟩
      · refine .inl ⟨?_, going, kept.trans same⟩
        exact List.forall_mem_cons.mpr ⟨not_fails_ok total, fine⟩
      · exact .inr ⟨⟨entry, List.mem_cons_of_mem _ member, failed⟩, dead, same ▸ cancelled⟩

theorem finish_dead (dead : session.stream = none) (ending : Finish) (s : σ) :
    (finish r ending session s).2 = s ∧
      ∀ answer, (finish r ending session s).1 = some answer →
        answer = .error (.transportFailure "finalizing upload" .uploadNotOpen) := by
  cases ending with
  | commit => simp [finish, commit_dead r dead]
  | abort => simp [finish, abort_dead r dead]
  | drop => simp [finish, drop_eq_abort, abort_dead r dead]

theorem finish_settles (forwards : r.Forwards Store.registry view handle)
    (going : session.IsGoing handle metadata) (ending : Finish) (s : σ) :
    match finish r ending session s with
    | (some (.ok _), t) => ending = .commit ∧ ∃ content sizes,
        view t = ((view s).commit metadata content).2.log
          (.upload (some metadata.name) sizes .committed)
    | (_, t) => (view s).Cancelled (view t) := by
  cases ending with
  | commit =>
    have settled := commit_settles forwards going s
    simp only [finish]
    rcases answered : session.commit r s with ⟨_ | _, t⟩
    · rwa [answered] at settled
    · rw [answered] at settled
      exact ⟨trivial, settled⟩
  | abort => exact abort_going forwards going s
  | drop =>
    simp only [finish, drop_eq_abort]
    exact abort_going forwards going s

/-- The ways that a session can go, from the store before it to the answers and the store after it. -/
inductive Course (r : Registry σ υ) (view : σ → Store) (metadata : UploadMetadata) (ending : Finish)
    (s t : σ) : Answers → Prop where
  | notBegun {error : GatewayError} (unopened : Fails (r.openUpload s).1 → view t = view s)
      (opened : ¬ Fails (r.openUpload s).1 → (view s).Cancelled (view t)) :
      Course r view metadata ending s t { begun := .error error }
  | relayFailed {relayed : List (Reader × Except GatewayError Nat)}
      {committed : Option (Except GatewayError Artifact)} (opened : ¬ Fails (r.openUpload s).1)
      (failed : ∃ entry ∈ relayed, Fails entry.2) (cancelled : (view s).Cancelled (view t))
      (refused : ∀ answer, committed = some answer →
        answer = .error (.transportFailure "finalizing upload" .uploadNotOpen)) :
      Course r view metadata ending s t { begun := .ok (), relayed, committed }
  /-- No relay failed, but the commit did or the client did not ask for it. -/
  | notCommitted {relayed : List (Reader × Except GatewayError Nat)}
      {committed : Option (Except GatewayError Artifact)} (opened : ¬ Fails (r.openUpload s).1)
      (fine : ∀ entry ∈ relayed, ¬ Fails entry.2) (cancelled : (view s).Cancelled (view t))
      (missing : ∀ artifact, committed ≠ some (.ok artifact)) :
      Course r view metadata ending s t { begun := .ok (), relayed, committed }
  | committed {relayed : List (Reader × Except GatewayError Nat)} {artifact : Artifact}
      {content : ByteArray} {sizes : List Nat} (asked : ending = .commit)
      (fine : ∀ entry ∈ relayed, ¬ Fails entry.2)
      (kept : view t = ((view s).commit metadata content).2.log
        (.upload (some metadata.name) sizes .committed)) :
      Course r view metadata ending s t
        { begun := .ok (), relayed, committed := some (.ok artifact) }

theorem run_course (forwards : r.Forwards Store.registry view handle) (configured : Nat)
    (metadata : UploadMetadata) (readers : List Reader) (ending : Finish) (s : σ) :
    let answers := (run r (Depot.frameSize configured) metadata readers ending s).1
    let t := (run r (Depot.frameSize configured) metadata readers ending s).2
    Course r view metadata ending s t answers ∧ answers.relayed.Pairwise fun earlier later =>
      Fails earlier.2 → ¬ later.1.IsSilent → Fails later.2 := by
  have started := begin_settles forwards (Depot.frameSize configured) metadata s
  rcases begun : begin r (Depot.frameSize configured) metadata s with ⟨_ | session, t⟩
  · rw [begun] at started
    simp only [run, begun]
    exact ⟨.notBegun started.1 started.2, .nil⟩
  · rw [begun] at started
    obtain ⟨opened, going, size, same⟩ := started
    have pos : 0 < session.frameSize := size ▸ frameSize_pos configured
    have settled := relayAll_settles forwards going pos readers t
    rcases relayed : relayAll r readers session t with ⟨entries, after, u⟩
    rcases finished : finish r ending after u with ⟨ended, w⟩
    simp only [relayed, same] at settled
    simp only [run, begun, relayed, finished]
    refine ⟨?_, settled.2⟩
    rcases settled.1 with ⟨fine, going, kept⟩ | ⟨failed, dead, cancelled⟩
    · have closed := finish_settles forwards going ending u
      rw [finished, kept] at closed
      rcases ended with _ | _ | artifact
      · exact .notCommitted opened fine closed (by simp)
      · exact .notCommitted opened fine closed (by simp)
      · obtain ⟨asked, content, sizes, committed⟩ := closed
        exact .committed asked fine committed
    · have ⟨kept, refused⟩ := finish_dead (r := r) dead ending u
      rw [finished] at kept refused
      obtain rfl : w = u := kept
      exact .relayFailed opened failed cancelled refused

/-- An upload commits only if nothing failed and its client asked for it. Otherwise nothing of it
shows but one entry in the log, which is missing only if its call never opened; whatever else is
asked of a session that failed fails too, as long as there is something to relay. -/
theorem failed_upload_never_commits (forwards : r.Forwards Store.registry view handle)
    (configured : Nat) (metadata : UploadMetadata) (readers : List Reader) (ending : Finish)
    (s : σ) :
    let answers := (run r (Depot.frameSize configured) metadata readers ending s).1
    let t := (run r (Depot.frameSize configured) metadata readers ending s).2
    (Fails answers.begun ∨ (∃ entry ∈ answers.relayed, Fails entry.2) ∨ ending ≠ .commit ∨
        (∃ answer, answers.committed = some answer ∧ Fails answer) →
      (Fails (r.openUpload s).1 → view t = view s) ∧
        (¬ Fails (r.openUpload s).1 → (view s).Cancelled (view t))) ∧
    (answers.relayed.Pairwise fun earlier later =>
      Fails earlier.2 → later.1.available ≠ .empty → Fails later.2) ∧
    ((∃ entry ∈ answers.relayed, Fails entry.2) → ∀ answer, answers.committed = some answer →
      ∃ context cause, answer = .error (.transportFailure context cause)) ∧
    ((∀ entry ∈ answers.relayed, ¬ Fails entry.2) → ∀ artifact, answers.committed = some (.ok artifact) →
      ∃ sizes, (view t).transfers =
        (view s).transfers ++ [.upload (some metadata.name) sizes .committed]) := by
  have ⟨course, ordered⟩ := run_course forwards configured metadata readers ending s
  generalize run r (Depot.frameSize configured) metadata readers ending s = result at course ordered ⊢
  obtain ⟨answers, t⟩ := result
  simp only at course ordered ⊢
  have delivers : answers.relayed.Pairwise fun earlier later =>
      Fails earlier.2 → later.1.available ≠ .empty → Fails later.2 :=
    ordered.imp fun later failed heard => later failed fun silent => heard silent.2
  cases course with
  | notBegun unopened opened => exact ⟨fun _ => ⟨unopened, opened⟩, .nil, by simp, by simp⟩
  | relayFailed opened failed cancelled refused =>
    refine ⟨fun _ => ⟨fun unopened => absurd unopened opened, fun _ => cancelled⟩, delivers,
      fun _ answer answered => ⟨_, _, refused answer answered⟩, fun fine => ?_⟩
    obtain ⟨entry, member, failed⟩ := failed
    exact absurd failed (fine entry member)
  | notCommitted opened fine cancelled missing =>
    refine ⟨fun _ => ⟨fun unopened => absurd unopened opened, fun _ => cancelled⟩, delivers, ?_,
      fun _ artifact answered => absurd answered (missing artifact)⟩
    rintro ⟨entry, member, failed⟩
    exact absurd failed (fine entry member)
  | committed asked fine kept =>
    refine ⟨?_, delivers, ?_, fun _ _ _ => ⟨_, by rw [kept, Store.log, Store.commit_transfers]⟩⟩
    · -- Nothing failed and the client committed.
      rintro (failed | ⟨entry, member, failed⟩ | other | ⟨answer, answered, failed⟩)
      · exact absurd failed (not_fails_ok ())
      · exact absurd failed (fine entry member)
      · exact absurd asked other
      · obtain rfl := Option.some.inj answered
        exact absurd failed (not_fails_ok _)
    · rintro ⟨entry, member, failed⟩
      exact absurd failed (fine entry member)

/-- Uploads lose their connection at the second content frame. -/
def secondFrameLost : Faults where
  send := some (2, { kind := .unavailable, registry := "flaky", cause := "stream reset" })

def lostVisit : Answers × Store :=
  run (Store.registry.withFaults secondFrameLost) (Depot.frameSize 4) ⟨Traffic.toolName, ["v1"]⟩
    [[.data "0123456789".toUTF8], [], [.data "ab".toUTF8]] .commit {}

theorem lost_visit_commits_nothing :
    (∃ entry ∈ lostVisit.1.relayed, Fails entry.2) ∧ Store.Cancelled {} lostVisit.2 ∧
      ∀ answer, lostVisit.1.committed = some answer →
        ∃ context cause, answer = .error (.transportFailure context cause) := by
  have broken : ∃ entry ∈ lostVisit.1.relayed, Fails entry.2 := by decide +kernel
  have opens : ¬ Fails ((Store.registry.withFaults secondFrameLost).openUpload {}).1 :=
    not_fails_ok _
  have visited := failed_upload_never_commits (Store.registry.withFaults_forwards secondFrameLost) 4
    ⟨Traffic.toolName, ["v1"]⟩ [[.data "0123456789".toUTF8], [], [.data "ab".toUTF8]] .commit {}
  rw [← lostVisit] at visited
  obtain ⟨nothing, _, refused, _⟩ := visited
  exact ⟨broken, (nothing (.inr (.inl broken))).2 opens, refused broken⟩

end Depot.UploadSession
