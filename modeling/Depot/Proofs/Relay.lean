import Depot.Proofs.Framing
import Depot.Store.Upload
import Depot.Transfer.Upload

/-! Uploading. Relaying a reader to a call that takes every frame sends the frames of its content.
To the store, an upload that has its metadata is such a call, for every frame below the ceiling, and
a session cuts none above it; so relaying a reader without failures ends in a commit of exactly what
the reader delivered. -/
namespace Depot

open Framing (join cut full remainder last)

namespace Registry

variable {σ υ : Type} (r : Registry σ υ)

def afterFrames : List ByteArray → υ → σ → υ × σ
  | [], u, s => (u, s)
  | frame :: frames, u, s =>
    let (_, u, s) := r.send (.content frame) u s
    afterFrames frames u s

/-- The call takes every frame of at most so many bytes, whatever it has taken before. -/
def TakesFrames (limit : Nat) (u : υ) (s : σ) : Prop :=
  ∀ frames, (∀ frame ∈ frames, frame.size ≤ limit) → ∀ frame, frame.size ≤ limit →
    (r.send (.content frame) (r.afterFrames frames u s).1 (r.afterFrames frames u s).2).1 = .ok ()

variable {r} {limit : Nat} {u : υ} {s : σ}

theorem TakesFrames.first (takes : r.TakesFrames limit u s) {frame : ByteArray}
    (small : frame.size ≤ limit) :
    ∃ v t, r.send (.content frame) u s = (.ok (), v, t) ∧ r.TakesFrames limit v t := by
  have taken := takes [] (by simp) frame small
  rcases sent : r.send (.content frame) u s with ⟨answer, v, t⟩
  obtain rfl : answer = .ok () := by simpa [afterFrames, sent] using taken
  refine ⟨v, t, rfl, fun frames smallFrames next smallNext => ?_⟩
  have later := takes (frame :: frames) (List.forall_mem_cons.mpr ⟨small, smallFrames⟩) next smallNext
  simpa only [afterFrames, sent] using later

end Registry

namespace UploadSession

variable {σ υ : Type} {r : Registry σ υ}

theorem sendFrames_append (frames rest : List ByteArray) (session : UploadSession υ) (s : σ) :
    sendFrames r (frames ++ rest) session s =
      match sendFrames r frames session s with
      | (.error error, after, t) => (.error error, after, t)
      | (.ok (), after, t) => sendFrames r rest after t := by
  induction frames generalizing session s with
  | nil => rfl
  | cons frame frames ih =>
    simp only [List.cons_append, sendFrames]
    rcases session.send r (.content frame) "sending content frame" s with ⟨_ | _, after, t⟩
    · rfl
    · exact ih _ t

/-- What is made of the frames of a reader and of how it ended. -/
def deliver (r : Registry σ υ) (framed : List ByteArray × Framing.Ending)
    (session : UploadSession υ) (s : σ) : Except GatewayError Nat × UploadSession υ × σ :=
  match sendFrames r framed.1 session s with
  | (.error error, after, t) => (.error error, after, t)
  | (.ok (), after, t) =>
    match framed.2 with
    | .broken error => (.error (.ofRead "reading upload payload" error), after.fail r t)
    | .clean rest =>
      match sendFrames r (last rest) after t with
      | (.error error, after, t) => (.error error, after, t)
      | (.ok (), after, t) => (.ok after.bytes, after, t)

theorem relay_eq_deliver (session : UploadSession υ) (reader : Reader) (s : σ) :
    session.relay r reader s =
      deliver r (Framing.ofReader session.frameSize .empty reader)
        { session with state := .transferring } s := rfl

variable {session : UploadSession υ} {u : υ} {s : σ}

def counted (session : UploadSession υ) (u : υ) (frames : List ByteArray) : UploadSession υ :=
  { session with
    stream := some u
    frames := session.frames + frames.length
    bytes := session.bytes + (join frames).size }

theorem sendFrames_taken {limit : Nat} (held : session.stream = some u)
    (takes : r.TakesFrames limit u s) {frames : List ByteArray}
    (small : ∀ frame ∈ frames, frame.size ≤ limit) :
    sendFrames r frames session s =
      (.ok (), session.counted (r.afterFrames frames u s).1 frames, (r.afterFrames frames u s).2) := by
  induction frames generalizing session u s with
  | nil => cases session; simp_all [sendFrames, counted, Registry.afterFrames]
  | cons frame frames ih =>
    obtain ⟨smallFirst, smallRest⟩ := List.forall_mem_cons.mp small
    obtain ⟨v, t, sent, takesRest⟩ := takes.first smallFirst
    have first : session.send r (.content frame) "sending content frame" s =
        (.ok (), { session with stream := some v }, t) := by simp [send, held, sent]
    simp only [sendFrames, first, Registry.afterFrames, sent]
    rw [ih rfl takesRest smallRest]
    simp [counted, Nat.add_assoc, Nat.add_comm 1]

/-- Relaying to a call that takes every frame sends them all, and then what the end asks for. -/
theorem relay_taken (held : session.stream = some u) (pos : 0 < session.frameSize)
    (takes : r.TakesFrames session.frameSize u s) (reader : Reader) :
    session.relay r reader s =
      match reader.failure? with
      | none =>
        let frames := cut session.frameSize reader.available
        let (v, t) := r.afterFrames frames u s
        let after := { session with state := .transferring }.counted v frames
        (.ok after.bytes, after, t)
      | some error =>
        let frames := full session.frameSize reader.available
        let (v, t) := r.afterFrames frames u s
        (.error (.ofRead "reading upload payload" error),
          ({ session with state := .transferring }.counted v frames).fail r t) := by
  let relaying : UploadSession υ := { session with state := .transferring }
  have stillHeld : relaying.stream = some u := held
  have empty : ByteArray.empty.size < session.frameSize := pos
  have smallFull : ∀ frame ∈ full session.frameSize reader.available,
      frame.size ≤ session.frameSize :=
    fun frame member => Nat.le_of_eq (Framing.size_of_mem_full member)
  have sentFull := sendFrames_taken stillHeld takes smallFull
  rw [relay_eq_deliver, Framing.ofReader_eq pos empty, ByteArray.empty_append]
  cases failure : reader.failure? with
  | some error => simp only [deliver, relaying, sentFull]
  | none =>
    have small : ∀ frame ∈ cut session.frameSize reader.available, frame.size ≤ session.frameSize :=
      fun frame member => (Framing.of_mem_cut pos member).2
    have sent := sendFrames_taken stillHeld takes small
    rw [Framing.cut_eq, sendFrames_append, sentFull] at sent
    simp only [deliver, relaying, sentFull] at sent ⊢
    rw [sent, Framing.cut_eq]

end UploadSession

namespace Upload

theorem content_eq (u : Upload) : u.content = join u.frames.toList := by
  rw [content, join, Array.foldl_toList]

/-- Named and not ended: content may be sent. -/
structure Ready (u : Upload) (metadata : UploadMetadata) : Prop where
  going : u.finished = false
  named : u.metadata = some metadata

def extend (u : Upload) (frames : List ByteArray) : Upload :=
  { u with frames := u.frames ++ frames.toArray }

variable {u : Upload} {metadata : UploadMetadata}

@[simp] theorem extend_nil (u : Upload) : u.extend [] = u := by
  simp [extend]

@[simp] theorem extend_extend (u : Upload) (frames rest : List ByteArray) :
    (u.extend frames).extend rest = u.extend (frames ++ rest) := by
  simp [extend]

theorem Ready.extend (ready : u.Ready metadata) (frames : List ByteArray) :
    (u.extend frames).Ready metadata := ⟨ready.going, ready.named⟩

theorem content_extend (u : Upload) (frames : List ByteArray) :
    (u.extend frames).content = u.content ++ join frames := by
  simp [content_eq, extend]

theorem Ready.send_content (ready : u.Ready metadata) {frame : ByteArray}
    (small : frame.size ≤ messageCeiling) :
    u.send (.content frame) = (.ok (), u.extend [frame]) := by
  simp [send, ready.going, ready.named, Upload.extend, Nat.not_lt.mpr small]

theorem Ready.takesFrames (ready : u.Ready metadata)
    {limit : Nat} (bounded : limit ≤ messageCeiling) (s : Store) :
    Store.registry.TakesFrames limit u s := by
  intro frames smallFrames frame small
  induction frames generalizing u with
  | nil =>
    have sent := ready.send_content (Nat.le_trans small bounded)
    simp [Registry.afterFrames, Store.registry, sent]
  | cons first frames ih =>
    obtain ⟨smallFirst, smallRest⟩ := List.forall_mem_cons.mp smallFrames
    have sent := ready.send_content (Nat.le_trans smallFirst bounded)
    simpa [Registry.afterFrames, Store.registry, sent] using
      ih (ready.extend [first]) smallRest

theorem Ready.afterFrames (ready : u.Ready metadata) {frames : List ByteArray}
    (small : ∀ frame ∈ frames, frame.size ≤ messageCeiling) (s : Store) :
    Store.registry.afterFrames frames u s = (u.extend frames, s) := by
  induction frames generalizing u with
  | nil => simp [Registry.afterFrames]
  | cons frame frames ih =>
    obtain ⟨smallFirst, smallRest⟩ := List.forall_mem_cons.mp small
    have sent := ready.send_content smallFirst
    simpa [Registry.afterFrames, Store.registry, sent] using ih (ready.extend [frame]) smallRest

theorem Ready.close (ready : u.Ready metadata) (s : Store) :
    u.close s = (.ok (s.commit metadata u.content).1, { u with finished := true },
      (s.commit metadata u.content).2.log (u.transfer .committed)) := by
  simp [Upload.close, ready.going, ready.named]

end Upload

namespace UploadSession

def opened (size : Nat) (metadata : UploadMetadata) : UploadSession Upload where
  stream := some { metadata := some metadata }
  state := .streamOpen
  frameSize := size

theorem begin_opened (size : Nat) (metadata : UploadMetadata) (s : Store) :
    begin Store.registry size metadata s = (.ok (opened size metadata), s) := rfl

def sent (session : UploadSession Upload) (u : Upload) (frames : List ByteArray) :
    UploadSession Upload :=
  { session with
    stream := some (u.extend frames)
    frames := session.frames + frames.length
    bytes := session.bytes + (join frames).size }

variable {session : UploadSession Upload} {u : Upload} {metadata : UploadMetadata}

/-- Relaying sends what the reader delivers, cut into frames. -/
theorem relay_ready (held : session.stream = some u) (ready : u.Ready metadata)
    (pos : 0 < session.frameSize) (bounded : session.frameSize ≤ messageCeiling)
    {reader : Reader} (clean : reader.failure? = none) (s : Store) :
    relay Store.registry session reader s =
      (.ok (session.bytes + reader.available.size),
        { session with state := .transferring }.sent u
          (cut session.frameSize reader.available), s) := by
  have small : ∀ frame ∈ cut session.frameSize reader.available, frame.size ≤ messageCeiling :=
    fun frame member => Nat.le_trans (Framing.of_mem_cut pos member).2 bounded
  rw [relay_taken held pos (ready.takesFrames bounded s) reader, clean]
  simp only [ready.afterFrames small s, counted, sent, Framing.join_cut]

theorem commit_ready (held : session.stream = some u) (ready : u.Ready metadata) (s : Store) :
    session.commit Store.registry s = (.ok (s.commit metadata u.content).1,
      (s.commit metadata u.content).2.log (u.transfer .committed)) := by
  simp [UploadSession.commit, held, Store.registry, ready.close, Upload.cancel]

end UploadSession

theorem frameSize_pos (configured : Nat) : 0 < frameSize configured := by
  simp only [frameSize, maxFrameSize]
  omega

theorem frameSize_le (configured : Nat) : frameSize configured ≤ messageCeiling := by
  simp only [frameSize, maxFrameSize, messageCeiling]
  omega

/-- Whatever size is configured and however the reader splits its content, all of it is committed. -/
theorem upload_clean (configured : Nat) (metadata : UploadMetadata) {reader : Reader}
    (clean : reader.failure? = none) (s : Store) :
    upload Store.registry (frameSize configured) metadata reader s =
      (.ok (s.commit metadata reader.available).1,
        (s.commit metadata reader.available).2.log
          (.upload (some metadata.name)
            ((cut (frameSize configured) reader.available).map ByteArray.size) .committed)) := by
  let named : Upload := { metadata := some metadata }
  let session := UploadSession.opened (frameSize configured) metadata
  have ready : named.Ready metadata := ⟨rfl, rfl⟩
  have begun : UploadSession.begin Store.registry (frameSize configured) metadata s =
      (.ok session, s) := UploadSession.begin_opened _ metadata s
  have held : session.stream = some named := rfl
  have relayed := UploadSession.relay_ready held ready (frameSize_pos configured)
    (frameSize_le configured) clean s
  have content : (named.extend (cut session.frameSize reader.available)).content =
      reader.available := by
    rw [Upload.content_extend, Framing.join_cut]
    exact ByteArray.empty_append
  have heldAfter : ({ session with state := .transferring }.sent named
      (cut session.frameSize reader.available)).stream =
        some (named.extend (cut session.frameSize reader.available)) := rfl
  have committed := UploadSession.commit_ready heldAfter (ready.extend _) s
  rw [content] at committed
  simp only [upload, begun, relayed, committed]
  simp [Upload.transfer, Upload.extend, named, session, UploadSession.opened]

end Depot
