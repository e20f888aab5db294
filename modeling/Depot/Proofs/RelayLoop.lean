import Depot.Proofs.Session
import Depot.Proofs.StoreInvariant

/-! The framing law of relaying. A relay fills a chunk, sends it and fills the next, until the reader
is exhausted or breaks. This loop comes to an end on every reader, in the one way in which the relay
does; what it sends is the content cut into frames, of which only the last may be short, and of a
reader that breaks the full frames alone. -/
namespace Depot

open Framing (join cut full remainder last)

namespace Framing

variable {size : Nat}

/-- A full frame in front of the content is the first of its frames. -/
theorem ofReader_cons (pos : 0 < size) {frame : ByteArray} (whole : frame.size = size)
    {reader rest : Reader} (joined : frame ++ rest.available = reader.available)
    (same : rest.failure? = reader.failure?) :
    ofReader size .empty reader =
      (frame :: (ofReader size .empty rest).1, (ofReader size .empty rest).2) := by
  have empty : ByteArray.empty.size < size := pos
  have one : frame.size = size * 1 := by rw [whole, Nat.mul_one]
  rw [ofReader_eq pos empty, ofReader_eq pos empty, ByteArray.empty_append, ByteArray.empty_append,
    ← joined, ← same, full_append pos one, remainder_append pos one, full_single pos whole,
    List.singleton_append]

end Framing

namespace Reader

/-- Reads until the chunk has so many bytes or the reader is exhausted, which the flag tells. Each
read asks for as many bytes as are missing, and gets at most the rest of one piece. -/
def fill (size : Nat) (chunk : ByteArray) (reader : Reader) :
    Except ReadError (ByteArray × Bool × Reader) :=
  if size ≤ chunk.size then .ok (chunk, false, reader)
  else
    match reader with
    | [] => .ok (chunk, true, [])
    | .failure error :: _ => .error error
    | .data bytes :: rest =>
      let missing := size - chunk.size
      if bytes.size ≤ missing then fill size (chunk ++ bytes) rest
      else
        .ok (chunk ++ bytes.extract 0 missing, false,
          .data (bytes.extract missing bytes.size) :: rest)

variable {size : Nat} {chunk : ByteArray} {reader : Reader}

theorem fill_filled (filled : size ≤ chunk.size) :
    reader.fill size chunk = .ok (chunk, false, reader) := by
  rw [fill.eq_def, if_pos filled]

/-- A reader that delivers enough fills the chunk, and keeps what does not fit. -/
theorem fill_full (short : chunk.size ≤ size)
    (enough : size ≤ (chunk ++ reader.available).size) :
    ∃ taken rest, reader.fill size chunk = .ok (taken, false, rest) ∧ taken.size = size ∧
      taken ++ rest.available = chunk ++ reader.available ∧ rest.failure? = reader.failure? := by
  induction reader generalizing chunk with
  | nil =>
    rw [available, ByteArray.append_empty] at enough
    exact ⟨chunk, [], fill_filled enough, Nat.le_antisymm short enough, rfl, rfl⟩
  | cons piece reader ih =>
    by_cases filled : size ≤ chunk.size
    · exact ⟨chunk, piece :: reader, fill_filled filled, Nat.le_antisymm short filled, rfl, rfl⟩
    · cases piece with
      | failure error =>
        rw [available, ByteArray.append_empty] at enough
        exact absurd enough filled
      | data bytes =>
        by_cases fits : bytes.size ≤ size - chunk.size
        · have shortStill : (chunk ++ bytes).size ≤ size := by
            rw [ByteArray.size_append]
            omega
          rw [available, ← ByteArray.append_assoc] at enough
          obtain ⟨taken, rest, filling, whole, joined, same⟩ := ih shortStill enough
          refine ⟨taken, rest, by simpa [fill, filled, fits] using filling, whole, ?_, same⟩
          rw [joined, available, ByteArray.append_assoc]
        · refine ⟨chunk ++ bytes.extract 0 (size - chunk.size),
            .data (bytes.extract (size - chunk.size) bytes.size) :: reader,
            by simp [fill, filled, fits], ?_, ?_, rfl⟩
          · rw [ByteArray.size_append, ByteArray.size_extract]
            omega
          · have parts : bytes.extract 0 (size - chunk.size) ++
                (bytes.extract (size - chunk.size) bytes.size ++ available reader) =
                  bytes ++ available reader := by
              rw [← ByteArray.append_assoc, Framing.front_rest (by omega)]
            rw [available, available, ByteArray.append_assoc, parts]

/-- Otherwise the reader is at its end, or it broke and what it delivered is lost. -/
theorem fill_short (missing : (chunk ++ reader.available).size < size) :
    reader.fill size chunk =
      match reader.failure? with
      | none => .ok (chunk ++ reader.available, true, [])
      | some error => .error error := by
  induction reader generalizing chunk with
  | nil =>
    rw [available, ByteArray.append_empty] at missing
    simp [fill, available, failure?, Nat.not_le.mpr missing]
  | cons piece reader ih =>
    cases piece with
    | failure error =>
      rw [available, ByteArray.append_empty] at missing
      simp [fill, failure?, Nat.not_le.mpr missing]
    | data bytes =>
      rw [available, ← ByteArray.append_assoc] at missing
      have sizes := missing
      simp only [ByteArray.size_append] at sizes
      have unfilled : ¬ size ≤ chunk.size := by omega
      have fits : bytes.size ≤ size - chunk.size := by omega
      simp only [fill, if_neg unfilled, if_pos fits, ih missing, available, failure?,
        ByteArray.append_assoc]

end Reader

namespace UploadSession

variable {σ υ : Type}

/-- Sends a chunk and counts it; an empty chunk is not sent. -/
def sendChunk (r : Registry σ υ) (session : UploadSession υ) (chunk : ByteArray) (s : σ) :
    Except GatewayError Unit × UploadSession υ × σ :=
  if chunk.isEmpty then (.ok (), session, s)
  else
    match session.send r (.content chunk) "sending content frame" s with
    | (.error error, session, s) => (.error error, session, s)
    | (.ok (), session, s) =>
      (.ok (), { session with frames := session.frames + 1, bytes := session.bytes + chunk.size }, s)

/-- The loop of a relay, from the chunk that is filled next to its end. -/
inductive Turns (r : Registry σ υ) : UploadSession υ → Reader → σ →
    Except GatewayError Nat × UploadSession υ × σ → Prop where
  | broken {session : UploadSession υ} {reader : Reader} {s : σ} {error : ReadError}
      (filled : reader.fill session.frameSize .empty = .error error) :
      Turns r session reader s (.error (.ofRead "reading upload payload" error), session.fail r s)
  | refused {session after : UploadSession υ} {reader rest : Reader} {s t : σ} {chunk : ByteArray}
      {exhausted : Bool} {error : GatewayError}
      (filled : reader.fill session.frameSize .empty = .ok (chunk, exhausted, rest))
      (sent : session.sendChunk r chunk s = (.error error, after, t)) :
      Turns r session reader s (.error error, after, t)
  | exhausted {session after : UploadSession υ} {reader rest : Reader} {s t : σ} {chunk : ByteArray}
      (filled : reader.fill session.frameSize .empty = .ok (chunk, true, rest))
      (sent : session.sendChunk r chunk s = (.ok (), after, t)) :
      Turns r session reader s (.ok after.bytes, after, t)
  | again {session after : UploadSession υ} {reader rest : Reader} {s t : σ} {chunk : ByteArray}
      {result : Except GatewayError Nat × UploadSession υ × σ}
      (filled : reader.fill session.frameSize .empty = .ok (chunk, false, rest))
      (sent : session.sendChunk r chunk s = (.ok (), after, t))
      (turns : Turns r after rest t result) : Turns r session reader s result

variable {r : Registry σ υ} {session : UploadSession υ}

/-- The loop has no choice. -/
theorem Turns.unique {reader : Reader} {s : σ}
    {one other : Except GatewayError Nat × UploadSession υ × σ}
    (turns : Turns r session reader s one) (otherTurns : Turns r session reader s other) :
    one = other := by
  induction turns with
  | broken filled => cases otherTurns <;> simp_all
  | refused filled sent => cases otherTurns <;> simp_all
  | exhausted filled sent => cases otherTurns <;> simp_all
  | again filled sent turns ih =>
    cases otherTurns with
    | again filledToo sentToo turnsToo =>
      obtain ⟨rfl, _, rfl⟩ := by simpa [filled] using filledToo
      obtain ⟨rfl, rfl⟩ := by simpa [sent] using sentToo
      exact ih turnsToo
    | _ => simp_all

theorem sendChunk_eq (r : Registry σ υ) (session : UploadSession υ) (chunk : ByteArray) (s : σ) :
    session.sendChunk r chunk s = sendFrames r (last chunk) session s := by
  unfold sendChunk last
  split
  · rfl
  · rcases sent : session.send r (.content chunk) "sending content frame" s with ⟨_ | _, _, _⟩ <;>
      simp only [sendFrames, sent]

theorem deliver_cons (frame : ByteArray) (frames : List ByteArray) (ending : Framing.Ending)
    (session : UploadSession υ) (s : σ) :
    deliver r (frame :: frames, ending) session s =
      match sendFrames r [frame] session s with
      | (.error error, after, t) => (.error error, after, t)
      | (.ok (), after, t) => deliver r (frames, ending) after t := by
  have parts := sendFrames_append (r := r) [frame] frames session s
  rw [List.singleton_append] at parts
  simp only [deliver, parts]
  rcases sendFrames r [frame] session s with ⟨_ | _, _, _⟩ <;> rfl

/-- The loop comes to an end, and does what is done with all frames at once. -/
theorem turns_deliver (pos : 0 < session.frameSize) (reader : Reader) (s : σ) :
    Turns r session reader s
      (deliver r (Framing.ofReader session.frameSize .empty reader) session s) := by
  -- Each turn that goes on takes a full chunk off the reader.
  induction content : reader.available.size using Nat.strongRecOn
    generalizing session reader s with
  | ind left ih =>
    have empty : ByteArray.empty.size < session.frameSize := pos
    by_cases enough : session.frameSize ≤ reader.available.size
    · obtain ⟨taken, rest, filled, whole, joined, same⟩ :=
        Reader.fill_full (Nat.le_of_lt empty) (by rwa [ByteArray.empty_append])
      rw [ByteArray.empty_append] at joined
      have nonempty : last taken = [taken] := by
        have someBytes : ¬ taken.isEmpty = true := by simp [ByteArray.isEmpty, whole]; omega
        rw [last, if_neg someBytes]
      have ended := sendFrames_ends r [taken] session s
      rw [Framing.ofReader_cons pos whole joined same, deliver_cons]
      rcases sent : sendFrames r [taken] session s with ⟨_ | _, after, t⟩
      · exact .refused filled (by rw [sendChunk_eq, nonempty, sent])
      · rw [sent] at ended
        have kept : after.frameSize = session.frameSize := ended
        have less : rest.available.size < left := by
          rw [← content, ← joined, ByteArray.size_append]
          omega
        refine .again filled (by rw [sendChunk_eq, nonempty, sent]) ?_
        rw [← kept]
        exact ih _ less (kept ▸ pos) rest t rfl
    · have few : (ByteArray.empty ++ reader.available).size < session.frameSize := by
        rw [ByteArray.empty_append]
        exact Nat.not_le.mp enough
      have filled := Reader.fill_short few
      obtain ⟨noFrame, allLeft⟩ := Framing.full_of_lt few
      rw [Framing.ofReader_eq pos empty, noFrame, allLeft]
      cases failure : reader.failure? with
      | some error =>
        rw [failure] at filled
        exact .broken filled
      | none =>
        simp only [failure, ByteArray.empty_append] at filled ⊢
        simp only [deliver, sendFrames]
        rcases sent : sendFrames r (last reader.available) session s with ⟨_ | _, after, t⟩
        · exact .refused filled (by rw [sendChunk_eq, sent])
        · exact .exhausted filled (by rw [sendChunk_eq, sent])

/-- A relay is its loop: it has the one result with which the loop ends. -/
theorem turns_iff (pos : 0 < session.frameSize) (reader : Reader) (s : σ)
    {result : Except GatewayError Nat × UploadSession υ × σ} :
    Turns r { session with state := .transferring } reader s result ↔
      result = session.relay r reader s := by
  have turns : Turns r { session with state := .transferring } reader s
      (session.relay r reader s) := by
    rw [relay_eq_deliver]
    have turning : 0 < { session with state := .transferring }.frameSize := pos
    exact turns_deliver turning reader s
  constructor
  · intro other
    exact other.unique turns
  · rintro rfl
    exact turns

end UploadSession

namespace UploadSession

variable {σ υ : Type} {r : Registry σ υ} {session : UploadSession υ} {u : υ} {s : σ}

/-- A session of any frame size, on a call that takes its frames, relays a reader in one way and no
other. If the reader ends, the frames are as few as the size allows, all but the last of them full
and none empty, and together they are the content. If it breaks, the full frames have been sent and
nothing behind them, and the call is cancelled. The frames are those of the bytes: how the reader
splits them does not show. -/
theorem relay_framing_law (held : session.stream = some u) (pos : 0 < session.frameSize)
    (takes : r.TakesFrames session.frameSize u s) (reader : Reader) :
    let size := session.frameSize
    let content := reader.available
    let answer := session.relay r reader s
    (∀ result, Turns r { session with state := .transferring } reader s result ↔ result = answer) ∧
    (reader.failure? = none →
      let frames := cut size content
      let taken := r.afterFrames frames u s
      answer = (.ok (session.bytes + content.size), { session with
        stream := some taken.1
        state := .transferring
        frames := session.frames + frames.length
        bytes := session.bytes + content.size }, taken.2) ∧
      frames.length = (content.size + size - 1) / size ∧ join frames = content ∧
      (∀ frame ∈ frames.dropLast, frame.size = size) ∧
      ∀ frame ∈ frames, frame ≠ .empty ∧ frame.size ≤ size) ∧
    ∀ error, reader.failure? = some error →
      let frames := full size content
      let taken := r.afterFrames frames u s
      answer = (.error (.ofRead "reading upload payload" error), { session with
        stream := none
        state := .failed
        frames := session.frames + content.size / size
        bytes := session.bytes + size * (content.size / size) }, r.cancel taken.1 taken.2) ∧
      frames.length = content.size / size ∧
      join frames = content.extract 0 (size * (content.size / size)) ∧
      ∀ frame ∈ frames, frame.size = size := by
  intro size content answer
  have relayed : answer = _ := relay_taken held pos takes reader
  refine ⟨fun result => turns_iff pos reader s, fun clean => ?_, fun error broken => ?_⟩
  · rw [clean] at relayed
    refine ⟨?_, Framing.length_cut pos content, Framing.join_cut size content,
      fun frame => Framing.size_of_mem_dropLast, fun frame => Framing.of_mem_cut pos⟩
    simp only [relayed, counted, Framing.join_cut, size, content]
  · rw [broken] at relayed
    refine ⟨?_, Framing.length_full size content, Framing.join_full_eq size content,
      fun frame => Framing.size_of_mem_full⟩
    have inside : size * (content.size / size) ≤ content.size := Nat.mul_div_le _ _
    simp only [relayed, counted, fail, Framing.length_full, Framing.join_full_eq,
      ByteArray.size_extract, Nat.min_eq_left inside, Nat.sub_zero, size, content]

def tricklingReader : Reader :=
  [.data "ab".toUTF8, .data .empty, .data "cde".toUTF8, .data "fghij".toUTF8]

def breakingReader : Reader :=
  [.data "abcdef".toUTF8, .failure (.stream .aborted "client went away")]

theorem trickling_reader_framed :
    let session := opened 4 ⟨Traffic.toolName, ["v1"]⟩
    let (answer, after, _) := session.relay Store.registry tricklingReader {}
    let (failure, broken, s) := session.relay Store.registry breakingReader {}
    answer = .ok 10 ∧ after.frames = 3 ∧ Fails failure ∧ broken.state = .failed ∧
      s.transfers = [.upload (some Traffic.toolName) [4] .cancelled] := by
  intro session
  have ready : Upload.Ready { metadata := some ⟨Traffic.toolName, ["v1"]⟩ } _ := ⟨rfl, rfl⟩
  have takes := ready.takesFrames (by decide : session.frameSize ≤ messageCeiling) {}
  have law := relay_framing_law (rfl : session.stream = _) (by decide) takes
  have ended := ((law tricklingReader).2.1 rfl).1
  have broke := ((law breakingReader).2.2 _ rfl).1
  simp only [ended, broke]
  exact ⟨congrArg Except.ok (by decide +kernel), by decide +kernel, fails_error _, trivial,
    by decide +kernel⟩

end UploadSession

end Depot
