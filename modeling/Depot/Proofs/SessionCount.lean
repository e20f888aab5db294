import Depot.Proofs.FailedUpload
import Depot.Proofs.Fidelity
import Mathlib.Algebra.GroupWithZero.Nat

/-! What a session counts. Its counters are those of the frames that the registry has taken, whether
the call is still open or was cancelled, and the log lists the same frames when the call ends. -/
namespace Depot

open Framing (join cut full)

namespace Framing

variable {size : Nat}

theorem size_of_mem_cut (pos : 0 < size) {content frame : ByteArray}
    (member : frame ∈ cut size content) : 1 ≤ frame.size ∧ frame.size ≤ size := by
  have ⟨nonempty, small⟩ := of_mem_cut pos member
  exact ⟨Nat.pos_of_ne_zero fun none => nonempty (ByteArray.size_eq_zero_iff.mp none), small⟩

/-- Contents framed one after the other are put together one after the other. -/
theorem join_cuts (size : Nat) (readers : List Reader) :
    join (readers.flatMap fun reader => cut size reader.available) =
      join (readers.map Reader.available) := by
  induction readers with
  | nil => rfl
  | cons reader readers ih =>
    rw [List.flatMap_cons, join_append, join_cut, ih, List.map_cons, join_cons]

end Framing

namespace Upload

variable {u : Upload} {metadata : UploadMetadata}

theorem Ready.transfer (ready : u.Ready metadata) (outcome : UploadOutcome) :
    u.transfer outcome =
      .upload (some metadata.name) (u.frames.toList.map ByteArray.size) outcome := by
  simp [Upload.transfer, ready.named]

/-- A frame is taken, or refused and the upload is as before. -/
theorem Ready.takes_or_refuses (ready : u.Ready metadata) (frame : ByteArray) :
    u.send (.content frame) = (.ok (), u.extend [frame]) ∨
      ∃ error, u.send (.content frame) = (.error error, u) := by
  by_cases small : frame.size ≤ messageCeiling
  · exact .inl (ready.send_content small)
  · refine .inr ⟨(Store.Refusal.frameTooLarge frame.size).error, ?_⟩
    simp [Upload.send, ready.going, ready.named, Nat.not_le.mp small]

end Upload

namespace UploadSession

variable {σ υ α : Type} {r : Registry σ υ} {session : UploadSession υ}

theorem relay_of_clean (pos : 0 < session.frameSize) {reader : Reader}
    (clean : reader.failure? = none) (s : σ) :
    session.relay r reader s =
      match sendFrames r (cut session.frameSize reader.available)
        { session with state := .transferring } s with
      | (.error error, after, t) => (.error error, after, t)
      | (.ok (), after, t) => (.ok after.bytes, after, t) := by
  have empty : ByteArray.empty.size < session.frameSize := pos
  rw [relay_eq_deliver, Framing.ofReader_eq pos empty, clean, ByteArray.empty_append,
    Framing.cut_eq, sendFrames_append]
  simp only [deliver]
  rcases sendFrames r (full session.frameSize reader.available)
    { session with state := .transferring } s with ⟨_ | _, after, t⟩ <;> rfl

theorem relay_of_broken (pos : 0 < session.frameSize) {reader : Reader} {error : ReadError}
    (broken : reader.failure? = some error) (s : σ) :
    session.relay r reader s =
      match sendFrames r (full session.frameSize reader.available)
        { session with state := .transferring } s with
      | (.error error, after, t) => (.error error, after, t)
      | (.ok (), after, t) =>
        (.error (.ofRead "reading upload payload" error), after.fail r t) := by
  have empty : ByteArray.empty.size < session.frameSize := pos
  rw [relay_eq_deliver, Framing.ofReader_eq pos empty, broken, ByteArray.empty_append]
  rfl

/-- What a session has counted is what the registry has taken: these frames. They are in the upload
while its call is open, and in the log once it was cancelled. -/
structure Counts (view : σ → Store) (handle : υ → Upload) (metadata : UploadMetadata)
    (before : Store) (session : UploadSession υ) (s : σ) (taken : List ByteArray) : Prop where
  frames : session.frames = taken.length
  bytes : session.bytes = (taken.map ByteArray.size).sum
  held : ∀ u, session.stream = some u →
    (handle u).Ready metadata ∧ (handle u).frames.toList = taken ∧ view s = before
  ended : session.stream = none →
    view s = before.log (.upload (some metadata.name) (taken.map ByteArray.size) .cancelled)

/-- A call counts these frames if it succeeds, and some first ones of them if it fails. -/
def Adds (view : σ → Store) (handle : υ → Upload) (metadata : UploadMetadata) (before : Store)
    (taken frames : List ByteArray) : Except GatewayError α × UploadSession υ × σ → Prop
  | (.ok _, after, t) => Counts view handle metadata before after t (taken ++ frames)
  | (.error _, after, t) =>
    ∃ front, front <+: frames ∧ Counts view handle metadata before after t (taken ++ front)

variable {view : σ → Store} {handle : υ → Upload} {metadata : UploadMetadata} {before : Store}
  {s t : σ} {taken : List ByteArray}

theorem Adds.behind {front frames : List ByteArray}
    {result : Except GatewayError α × UploadSession υ × σ}
    (adds : Adds view handle metadata before (taken ++ front) frames result) :
    Adds view handle metadata before taken (front ++ frames) result := by
  rcases result with ⟨_ | _, after, t⟩
  · obtain ⟨more, start, counts⟩ := adds
    rw [List.append_assoc] at counts
    exact ⟨front ++ more, (List.prefix_append_right_inj front).mpr start, counts⟩
  · simpa only [Adds, List.append_assoc] using adds

namespace Counts

/-- The label of a session does not count. -/
theorem relabel (counts : Counts view handle metadata before session s taken)
    (state : TransferState) :
    Counts view handle metadata before { session with state } s taken :=
  ⟨counts.frames, counts.bytes, counts.held, counts.ended⟩

/-- A call that was refused a frame stands for the same upload. -/
theorem refused (counts : Counts view handle metadata before session s taken) {u v : υ}
    (held : session.stream = some u) (same : handle v = handle u) (kept : view t = view s) :
    Counts view handle metadata before { session with stream := some v } t taken := by
  obtain ⟨ready, frames, unchanged⟩ := counts.held u held
  refine ⟨counts.frames, counts.bytes, fun w holds => ?_, nofun⟩
  obtain rfl : v = w := Option.some.inj holds
  rw [same, kept]
  exact ⟨ready, frames, unchanged⟩

theorem accepted (counts : Counts view handle metadata before session s taken) {u v : υ}
    {frame : ByteArray} (held : session.stream = some u)
    (more : handle v = (handle u).extend [frame]) (kept : view t = view s) :
    Counts view handle metadata before { session with
      stream := some v, frames := session.frames + 1, bytes := session.bytes + frame.size } t
      (taken ++ [frame]) := by
  obtain ⟨ready, frames, unchanged⟩ := counts.held u held
  refine ⟨?_, ?_, fun w holds => ?_, nofun⟩
  · simp [counts.frames]
  · simp [counts.bytes]
  · obtain rfl : v = w := Option.some.inj holds
    rw [more, kept]
    exact ⟨ready.extend [frame], by simp [Upload.extend, frames], unchanged⟩

theorem fail (counts : Counts view handle metadata before session s taken)
    (forwards : r.Forwards Store.registry view handle) :
    Counts view handle metadata before (session.fail r s).1 (session.fail r s).2 taken := by
  cases held : session.stream with
  | none =>
    rw [fail_dead r held]
    exact counts.relabel .failed
  | some u =>
    obtain ⟨ready, frames, unchanged⟩ := counts.held u held
    have cancelled := fail_held forwards held ready.going s
    rw [ready.transfer, frames, unchanged] at cancelled
    exact ⟨counts.frames, counts.bytes, nofun, fun _ => cancelled⟩

/-- One frame is sent. The counters go up with the upload, and not if it does not take the frame. -/
theorem send (counts : Counts view handle metadata before session s taken)
    (forwards : r.Forwards Store.registry view handle) (frame : ByteArray) (context : String) :
    match session.send r (.content frame) context s with
    | (.ok (), after, t) => Counts view handle metadata before { after with
        frames := after.frames + 1, bytes := after.bytes + frame.size } t (taken ++ [frame])
    | (.error _, after, t) => Counts view handle metadata before after t taken := by
  cases held : session.stream with
  | none =>
    simp only [send_dead r held]
    exact counts.relabel .failed
  | some u =>
    obtain ⟨same, sent⟩ := forwarded_send forwards (.content frame) u s
    have ready := (counts.held u held).1
    simp only [UploadSession.send, held]
    rcases answer : r.send (.content frame) u s with ⟨error | _, v, w⟩
    · simp only [answer] at same sent ⊢
      have unchanged : handle v = handle u := by
        rcases sent with ⟨_, kept⟩ | ⟨answered, kept⟩
        · exact kept
        · rcases ready.takes_or_refuses frame with own | ⟨_, own⟩
          · rw [own] at answered
            contradiction
          · rw [kept, own]
      exact (counts.refused held unchanged same).fail forwards
    · simp only [answer] at same sent ⊢
      have extended : handle v = (handle u).extend [frame] := by
        rcases sent with ⟨failed, _⟩ | ⟨answered, kept⟩
        · exact absurd failed (not_fails_ok _)
        · rcases ready.takes_or_refuses frame with own | ⟨_, own⟩
          · rw [kept, own]
          · rw [own] at answered
            contradiction
      exact counts.accepted held extended same

theorem sendFrames (counts : Counts view handle metadata before session s taken)
    (forwards : r.Forwards Store.registry view handle) (frames : List ByteArray) :
    Adds view handle metadata before taken frames
      (UploadSession.sendFrames r frames session s) := by
  induction frames generalizing session s taken with
  | nil => simpa only [UploadSession.sendFrames, Adds, List.append_nil] using counts
  | cons frame frames ih =>
    have first := counts.send forwards frame "sending content frame"
    simp only [UploadSession.sendFrames]
    rcases sent : session.send r (.content frame) "sending content frame" s with
      ⟨error | _, after, t⟩
    · rw [sent] at first
      exact ⟨[], List.nil_prefix, by simpa using first⟩
    · rw [sent] at first
      exact (ih first).behind

/-- A relay that succeeds counts what its reader delivers, cut into frames. -/
theorem relay (counts : Counts view handle metadata before session s taken)
    (forwards : r.Forwards Store.registry view handle) (pos : 0 < session.frameSize)
    (reader : Reader) :
    Adds view handle metadata before taken (cut session.frameSize reader.available)
      (session.relay r reader s) := by
  have relaying := counts.relabel .transferring
  cases failure : reader.failure? with
  | none =>
    have added := relaying.sendFrames forwards (cut session.frameSize reader.available)
    rw [relay_of_clean pos failure]
    rcases sent : UploadSession.sendFrames r (cut session.frameSize reader.available)
      { session with state := .transferring } s with ⟨_ | _, after, t⟩
    · rwa [sent] at added
    · rwa [sent] at added
  | some error =>
    have added := relaying.sendFrames forwards (full session.frameSize reader.available)
    have start : full session.frameSize reader.available <+:
        cut session.frameSize reader.available := by
      rw [Framing.cut_eq]
      exact List.prefix_append _ _
    rw [relay_of_broken pos failure]
    rcases sent : UploadSession.sendFrames r (full session.frameSize reader.available)
      { session with state := .transferring } s with ⟨_ | _, after, t⟩
    · rw [sent] at added
      obtain ⟨front, first, counts⟩ := added
      exact ⟨front, first.trans start, counts⟩
    · rw [sent] at added
      exact ⟨_, start, added.fail forwards⟩

/-- Once a relay has failed, the ones behind it add nothing. -/
theorem relayAll (counts : Counts view handle metadata before session s taken)
    (forwards : r.Forwards Store.registry view handle) (pos : 0 < session.frameSize)
    (readers : List Reader) :
    let (_, after, t) := relayAll r readers session s
    let frames := readers.flatMap fun reader => cut session.frameSize reader.available
    ∃ more, more <+: frames ∧ (after.stream ≠ none → more = frames) ∧
      Counts view handle metadata before after t (taken ++ more) := by
  induction readers generalizing session s taken with
  | nil =>
    refine ⟨[], List.nil_prefix, fun _ => rfl, ?_⟩
    rw [List.append_nil]
    exact counts
  | cons reader readers ih =>
    have added := counts.relay forwards pos reader
    have ended := relay_ends r session reader s
    simp only [UploadSession.relayAll, List.flatMap_cons]
    rcases answered : session.relay r reader s with ⟨error | total, after, t⟩
    · simp only [answered, Adds, Ends] at added ended
      obtain ⟨front, start, counts⟩ := added
      obtain ⟨same, dead, _⟩ := ended
      obtain ⟨answers, state, relayed, _⟩ := relayAll_dead (r := r) dead (same ▸ pos) readers t
      simp only [relayed]
      exact ⟨front, start.trans (List.prefix_append _ _), fun going => absurd dead going,
        counts.relabel state⟩
    · simp only [answered, Adds, Ends] at added ended
      have rest := ih added (ended ▸ pos)
      rcases relayed : UploadSession.relayAll r readers after t with ⟨answers, last, w⟩
      simp only [relayed, ended, List.append_assoc] at rest ⊢
      obtain ⟨more, start, whole, counts⟩ := rest
      exact ⟨_, (List.prefix_append_right_inj _).mpr start, fun going => by rw [whole going],
        counts⟩

/-- When the session ends, the log lists what was counted, and a commit stores it. -/
theorem finish (counts : Counts view handle metadata before session s taken)
    (forwards : r.Forwards Store.registry view handle) (ending : Finish) :
    match finish r ending session s with
    | (some (.ok artifact), t) => session.stream ≠ none ∧ (artifact, view t) =
        ((before.commit metadata (join taken)).1, (before.commit metadata (join taken)).2.log
          (.upload (some metadata.name) (taken.map ByteArray.size) .committed))
    | (_, t) => view t =
        before.log (.upload (some metadata.name) (taken.map ByteArray.size) .cancelled) := by
  have failed := (counts.fail forwards).ended rfl
  cases ending with
  | abort => exact failed
  | drop =>
    simp only [UploadSession.finish, drop_eq_abort]
    exact failed
  | commit =>
    simp only [UploadSession.finish]
    cases held : session.stream with
    | none =>
      simp only [commit_dead r held]
      exact counts.ended held
    | some u =>
      obtain ⟨ready, frames, unchanged⟩ := counts.held u held
      have closed := commit_held forwards held ready s
      rw [Upload.content_eq, ready.transfer, ready.transfer, frames, unchanged] at closed
      rcases answered : session.commit r s with ⟨error | artifact, t⟩
      · rwa [answered] at closed
      · rw [answered] at closed
        exact ⟨Option.some_ne_none u, closed⟩

/-- A session that has begun has counted nothing. -/
theorem ofBegin (forwards : r.Forwards Store.registry view handle) {size : Nat}
    (begun : begin r size metadata s = (.ok session, t)) :
    Counts view handle metadata (view s) session t [] ∧ session.frameSize = size := by
  obtain ⟨same, fresh⟩ := forwarded_open forwards s
  rcases opened : r.openUpload s with ⟨_ | u, w⟩
  · simp [begin, opened] at begun
  · have unsent : handle u = {} := fresh u (by rw [opened])
    obtain ⟨kept, sent⟩ := forwarded_send forwards (.metadata metadata) u w
    rcases answer : r.send (.metadata metadata) u w with ⟨_ | _, v, z⟩
    · simp [begin, opened, UploadSession.send, answer] at begun
    · simp only [begin, opened, UploadSession.send, answer, Prod.mk.injEq, Except.ok.injEq] at begun
      obtain ⟨rfl, rfl⟩ := begun
      simp only [answer, unsent, opened] at kept sent same
      have named : handle v = { metadata := some metadata } := by
        rcases sent with ⟨failed, _⟩ | ⟨_, taken⟩
        · exact absurd failed (not_fails_ok _)
        · exact taken
      refine ⟨⟨rfl, rfl, fun w holds => ?_, fun ended => absurd ended (Option.some_ne_none v)⟩, rfl⟩
      obtain rfl : v = w := Option.some.inj holds
      rw [named]
      exact ⟨⟨rfl, rfl⟩, rfl, kept.trans same⟩

end Counts

theorem relay_total {reader : Reader} {total : Nat} {after : UploadSession υ}
    (relayed : session.relay r reader s = (.ok total, after, t)) : total = after.bytes := by
  rw [relay_eq_deliver] at relayed
  unfold deliver at relayed
  split at relayed
  · simp at relayed
  · split at relayed
    · simp at relayed
    · split at relayed
      · simp at relayed
      · obtain ⟨rfl, rfl, _⟩ := by simpa using relayed
        rfl

theorem relayAll_total (readers : List Reader) (session : UploadSession υ) (s : σ) :
    let (answers, after, _) := relayAll r readers session s
    ∀ reader total, answers.getLast? = some (reader, .ok total) → total = after.bytes := by
  induction readers generalizing session s with
  | nil => simp [relayAll]
  | cons reader readers ih =>
    simp only [relayAll]
    rcases answered : session.relay r reader s with ⟨answer, after, t⟩
    cases readers with
    | nil =>
      simp only [relayAll, List.getLast?_singleton, Option.some.injEq, Prod.mk.injEq]
      rintro _ total ⟨_, rfl⟩
      exact relay_total answered
    | cons next readers =>
      have rest := ih after t
      simp only [relayAll] at rest ⊢
      simpa only [List.getLast?_cons_cons] using rest

/-- A session over the store, or over any registry in front of it that hands calls on or fails them,
relays readers one after the other. Its counters are those of the content frames that the store has
taken from it: first frames of what the readers deliver, of which none is empty and none longer than
a chunk. A relay answers the bytes of all relays up to it. When the call ends the log lists just
these frames, and a commit stores what they carry, which is then all that the readers delivered. -/
theorem counters_agree_with_log (forwards : r.Forwards Store.registry view handle)
    (configured : Nat) (begun : begin r (Depot.frameSize configured) metadata s = (.ok session, t))
    (readers : List Reader) :
    let (answers, after, w) := relayAll r readers session t
    ∃ taken : List ByteArray,
      let sizes := taken.map ByteArray.size
      taken <+: readers.flatMap (fun reader => cut (Depot.frameSize configured) reader.available) ∧
      after.frames = sizes.length ∧ after.bytes = sizes.sum ∧
      (∀ size ∈ sizes, 1 ≤ size ∧ size ≤ Depot.frameSize configured) ∧
      (∀ reader total, answers.getLast? = some (reader, .ok total) → total = after.bytes) ∧
      (∀ u, after.stream = some u → (handle u).frames.toList = taken ∧ view w = view s) ∧
      (after.stream = none →
        view w = (view s).log (.upload (some metadata.name) sizes .cancelled)) ∧
      ∀ ending, match finish r ending after w with
        | (some (.ok artifact), z) => join taken = join (readers.map Reader.available) ∧
          (artifact, view z) = (((view s).commit metadata (join taken)).1,
            ((view s).commit metadata (join taken)).2.log
              (.upload (some metadata.name) sizes .committed)) ∧
          (view s).Took (view z) metadata (join taken)
        | (_, z) => view z = (view s).log (.upload (some metadata.name) sizes .cancelled) := by
  obtain ⟨counts, size⟩ := Counts.ofBegin forwards begun
  have pos : 0 < session.frameSize := size ▸ frameSize_pos configured
  have relayed := counts.relayAll forwards pos readers
  have totals := relayAll_total (r := r) readers session t
  rcases played : relayAll r readers session t with ⟨answers, after, w⟩
  simp only [played, size, List.nil_append] at relayed totals ⊢
  obtain ⟨taken, start, whole, counts⟩ := relayed
  refine ⟨taken, start, by rw [counts.frames, List.length_map], counts.bytes, ?_, totals,
    fun u held => (counts.held u held).2, counts.ended, fun ending => ?_⟩
  · intro size member
    obtain ⟨frame, sent, rfl⟩ := List.mem_map.mp member
    obtain ⟨reader, _, framed⟩ := List.mem_flatMap.mp (start.subset sent)
    exact Framing.size_of_mem_cut (frameSize_pos configured) framed
  · have closed := counts.finish forwards ending
    rcases finished : finish r ending after w with ⟨_ | _ | artifact, z⟩
    · rwa [finished] at closed
    · rwa [finished] at closed
    · rw [finished] at closed
      obtain ⟨going, committed⟩ := closed
      refine ⟨?_, committed, ?_⟩
      · rw [whole going, Framing.join_cuts]
      · rw [(Prod.mk.inj committed).2]
        exact (view s).commit_took metadata (join taken)

def flakySession : UploadSession (Upload × Nat) where
  stream := some ({ metadata := some ⟨Traffic.toolName, ["v1"]⟩ }, 1)
  state := .streamOpen
  frameSize := Depot.frameSize 4

def flakyRelays : List (Reader × Except GatewayError Nat) × UploadSession (Upload × Nat) × Store :=
  relayAll (Store.registry.withFaults secondFrameLost)
    [[.data "0123".toUTF8], [.data "45".toUTF8, .data "6789".toUTF8]] flakySession {}

theorem lost_frame_is_not_counted :
    flakyRelays.2.1.frames = 1 ∧ flakyRelays.2.1.bytes = 4 ∧
      ∃ sizes, sizes.length = 1 ∧ sizes.sum = 4 ∧
        flakyRelays.2.2 = Store.log {} (.upload (some Traffic.toolName) sizes .cancelled) := by
  have begun : begin (Store.registry.withFaults secondFrameLost) (Depot.frameSize 4)
      ⟨Traffic.toolName, ["v1"]⟩ {} = (.ok flakySession, {}) := rfl
  have law := counters_agree_with_log (Store.registry.withFaults_forwards secondFrameLost) 4 begun
    [[.data "0123".toUTF8], [.data "45".toUTF8, .data "6789".toUTF8]]
  obtain ⟨taken, _, frames, bytes, _, _, _, cancelled, _⟩ := law
  have one : flakyRelays.2.1.frames = 1 := by decide +kernel
  have four : flakyRelays.2.1.bytes = 4 := by decide +kernel
  have dead : flakyRelays.2.1.stream = none := by decide +kernel
  exact ⟨one, four, _, frames.symm.trans one, bytes.symm.trans four, cancelled dead⟩

end UploadSession

end Depot
