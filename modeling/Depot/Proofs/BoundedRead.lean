import Depot.Reader

/-! Reads with a ceiling. What such a read answers depends on the bytes in front of the first
failure alone, not on the pieces they come in: enough of them are too long, whatever follows; fewer
are complete or end in the failure. Nothing behind the ceiling is read. Interruptions do not count
as failures. -/
namespace Depot.Reader

variable {reader : Reader}

theorem uninterrupted_clean (clean : reader.failure? = none) : reader.uninterrupted = reader := by
  induction reader with
  | nil => rfl
  | cons piece rest ih =>
    cases piece with
    | failure error => simp [failure?] at clean
    | data bytes => exact congrArg (Piece.data bytes :: ·) (ih clean)

theorem uninterrupted_failure {error : ReadError}
    (final : ∀ message, error ≠ .stream .interrupted message) (rest : Reader) :
    uninterrupted (.failure error :: rest) = .failure error :: rest.uninterrupted := by
  apply List.filter_cons_of_pos
  rcases error with ⟨_ | _ | _ | _ | _ | _, message⟩ | cause <;> simp_all [Piece.isInterruption]

theorem readWithin_answer {room : Nat} (pos : 0 < room) (read : ByteArray) (reader : Reader) :
    (readWithin room read reader).1 =
      if room ≤ reader.uninterrupted.available.size then .ok .tooLong
      else
        match reader.uninterrupted.failure? with
        | none => .ok (.complete (read ++ reader.uninterrupted.available))
        | some error => .error error := by
  have nothing : ¬ room ≤ ByteArray.empty.size := Nat.not_le.mpr pos
  fun_induction readWithin room read reader with
  | case1 room read => simp only [uninterrupted, List.filter_nil, available, failure?, nothing,
      if_false, ByteArray.append_empty]
  | case2 room read message rest ih => exact ih pos nothing
  | case3 room read error rest final =>
    simp only [uninterrupted_failure final, available, failure?, nothing, if_false]
  | case4 room read bytes rest long =>
    have reached : room ≤ (bytes ++ available (uninterrupted rest)).size := by
      rw [ByteArray.size_append]
      omega
    exact (if_pos reached).symm
  | case5 room read bytes rest short ih =>
    have reaches : room - bytes.size ≤ (available (uninterrupted rest)).size ↔
        room ≤ (bytes ++ available (uninterrupted rest)).size := by
      rw [ByteArray.size_append]
      omega
    rw [ih (by omega) (by simp; omega), ByteArray.append_assoc]
    simp only [reaches]
    rfl

/-- A ceiling is reached by enough bytes, whatever follows them; fewer bytes are complete if nothing
but the end follows. -/
theorem readBounded_answer (ceiling : Nat) (reader : Reader) :
    (reader.readBounded ceiling).1 =
      if ceiling ≤ reader.uninterrupted.available.size then .ok .tooLong
      else
        match reader.uninterrupted.failure? with
        | none => .ok (.complete reader.uninterrupted.available)
        | some error => .error error := by
  unfold readBounded
  by_cases none : ceiling = 0
  · simp [none]
  · rw [if_neg none, readWithin_answer (Nat.pos_of_ne_zero none), ByteArray.empty_append]

/-! ### What a read leaves -/

inductive Signal where
  | byte (b : UInt8)
  | failure (error : ReadError)
  deriving DecidableEq

/-- What a reader delivers, one signal after the other, however it is split into pieces. -/
def signals : Reader → List Signal
  | [] => []
  | .data bytes :: rest => bytes.data.toList.map .byte ++ signals rest
  | .failure error :: rest => .failure error :: signals rest

namespace Signal

def byte? : Signal → Option UInt8
  | .byte b => some b
  | .failure _ => none

/-- A failure that is not tried again. -/
def final? : Signal → Option ReadError
  | .byte _ | .failure (.stream .interrupted _) => none
  | .failure error => some error

/-- What is left when so many bytes have been read, or a failure that is not tried again. -/
def leftBehind : Nat → List Signal → List Signal
  | 0, signals => signals
  | _, [] => []
  | room + 1, .byte _ :: rest => leftBehind room rest
  | room + 1, .failure (.stream .interrupted _) :: rest => leftBehind (room + 1) rest
  | _, .failure _ :: rest => rest

/-- The signals end with the last of these bytes, and nothing but interruptions stands between
them. -/
inductive Spans : List Signal → List UInt8 → Prop
  | nil : Spans [] []
  | byte (b : UInt8) {signals : List Signal} {bytes : List UInt8} :
      Spans signals bytes → Spans (.byte b :: signals) (b :: bytes)
  | interruption (message : String) {signals : List Signal} {bytes : List UInt8} :
      bytes ≠ [] → Spans signals bytes →
      Spans (.failure (.stream .interrupted message) :: signals) bytes

variable {room : Nat} {error : ReadError}

theorem final?_eq (final : ∀ message, error ≠ .stream .interrupted message) :
    final? (.failure error) = some error := by
  rcases error with ⟨_ | _ | _ | _ | _ | _, message⟩ | cause <;> simp_all [final?]

theorem leftBehind_bytes (room : Nat) (bytes : List UInt8) (rest : List Signal) :
    leftBehind room (bytes.map .byte ++ rest) =
      if room ≤ bytes.length then (bytes.drop room).map .byte ++ rest
      else leftBehind (room - bytes.length) rest := by
  induction bytes generalizing room with
  | nil => cases room <;> simp [leftBehind]
  | cons b bytes ih => cases room <;> simp [leftBehind, ih]

theorem leftBehind_interruption (pos : 0 < room) (message : String) (rest : List Signal) :
    leftBehind room (.failure (.stream .interrupted message) :: rest) = leftBehind room rest := by
  obtain ⟨less, rfl⟩ := Nat.exists_eq_add_one.mpr pos
  rw [leftBehind]

theorem leftBehind_final (pos : 0 < room) (final : ∀ message, error ≠ .stream .interrupted message)
    (rest : List Signal) : leftBehind room (.failure error :: rest) = rest := by
  obtain ⟨less, rfl⟩ := Nat.exists_eq_add_one.mpr pos
  rcases error with ⟨_ | _ | _ | _ | _ | _, message⟩ | cause <;> simp_all [leftBehind]

theorem Spans.behind {signals : List Signal} {more : List UInt8} (spans : Spans signals more)
    (bytes : List UInt8) : Spans (bytes.map .byte ++ signals) (bytes ++ more) := by
  induction bytes with
  | nil => exact spans
  | cons b bytes ih => exact ih.byte b

end Signal

open Signal (leftBehind Spans)

theorem interrupted_or_final (error : ReadError) :
    (∃ message, error = .stream .interrupted message) ∨
      ∀ message, error ≠ .stream .interrupted message := by
  by_cases interrupted : ∃ message, error = .stream .interrupted message
  · exact .inl interrupted
  · exact .inr (not_exists.mp interrupted)

theorem available_signals (reader : Reader) :
    reader.uninterrupted.available.data.toList =
      (reader.signals.takeWhile fun signal => signal.final?.isNone).filterMap Signal.byte? := by
  induction reader with
  | nil => rfl
  | cons piece rest ih =>
    cases piece with
    | data bytes =>
      have whole : uninterrupted (.data bytes :: rest) = .data bytes :: uninterrupted rest := rfl
      rw [whole, available, signals, ByteArray.data_append, Array.toList_append, ih,
        List.takeWhile_append_of_pos (by simp [Signal.final?]), List.filterMap_append]
      congr 1
      simp [List.filterMap_map, Function.comp_def, Signal.byte?]
    | failure error =>
      rcases interrupted_or_final error with ⟨message, rfl⟩ | final
      · exact ih
      · rw [uninterrupted_failure final, signals]
        simp [available, Signal.final?_eq final]

theorem failure_signals (reader : Reader) :
    reader.uninterrupted.failure? = reader.signals.findSome? Signal.final? := by
  induction reader with
  | nil => rfl
  | cons piece rest ih =>
    cases piece with
    | data bytes =>
      have whole : uninterrupted (.data bytes :: rest) = .data bytes :: uninterrupted rest := rfl
      have none : (bytes.data.toList.map Signal.byte).findSome? Signal.final? = none := by
        simp [Signal.final?]
      rw [whole, failure?, ih, signals, List.findSome?_append, none, Option.none_or]
    | failure error =>
      rcases interrupted_or_final error with ⟨message, rfl⟩ | final
      · exact ih
      · rw [uninterrupted_failure final, signals]
        simp [failure?, Signal.final?_eq final]

theorem readWithin_left {room : Nat} (pos : 0 < room) (read : ByteArray) (reader : Reader) :
    (readWithin room read reader).2.signals = leftBehind room reader.signals := by
  fun_induction readWithin room read reader with
  | case1 room read =>
    obtain ⟨less, rfl⟩ := Nat.exists_eq_add_one.mpr pos
    rfl
  | case2 room read message rest ih =>
    rw [ih pos, signals, Signal.leftBehind_interruption pos]
  | case3 room read error rest final =>
    rw [signals, Signal.leftBehind_final pos final]
  | case4 room read bytes rest long =>
    have behind : (bytes.extract room bytes.size).data.toList = bytes.data.toList.drop room := by
      simp [List.take_of_length_le]
    rw [signals, signals, Signal.leftBehind_bytes, behind]
    exact (if_pos long).symm
  | case5 room read bytes rest short ih =>
    rw [signals, ih (by omega), Signal.leftBehind_bytes]
    exact (if_neg short).symm

theorem readBounded_left (ceiling : Nat) (reader : Reader) :
    (reader.readBounded ceiling).2.signals = leftBehind ceiling reader.signals := by
  unfold readBounded
  split
  next none =>
    subst none
    rw [leftBehind]
  next some => exact readWithin_left (Nat.pos_of_ne_zero some) _ _

/-- Enough bytes are read one by one, up to the ceiling and not beyond. -/
theorem exists_spans {room : Nat} {reader : Reader}
    (enough : room ≤ reader.uninterrupted.available.size) :
    ∃ taken, reader.signals = taken ++ leftBehind room reader.signals ∧
      Spans taken (reader.uninterrupted.available.data.toList.take room) := by
  rcases Nat.eq_zero_or_pos room with rfl | pos
  · exact ⟨[], by rw [leftBehind, List.nil_append], .nil⟩
  induction reader generalizing room with
  | nil => exact absurd enough (Nat.not_le.mpr pos)
  | cons piece rest ih =>
    cases piece with
    | data bytes =>
      have whole : uninterrupted (.data bytes :: rest) = .data bytes :: uninterrupted rest := rfl
      rw [whole, available, ByteArray.size_append] at enough
      rw [whole, available, ByteArray.data_append, Array.toList_append, signals,
        Signal.leftBehind_bytes]
      split
      next inside =>
        refine ⟨(bytes.data.toList.take room).map .byte, ?_, ?_⟩
        · rw [← List.append_assoc, ← List.map_append, List.take_append_drop]
        · rw [List.take_append_of_le_length inside]
          simpa using Spans.nil.behind (bytes.data.toList.take room)
      next beyond =>
        have pos : 0 < room - bytes.data.toList.length := by omega
        obtain ⟨taken, parts, spans⟩ := ih (by simp; omega) pos
        refine ⟨bytes.data.toList.map .byte ++ taken, ?_, ?_⟩
        · rw [List.append_assoc, ← parts]
        · rw [List.take_append, List.take_of_length_le (by omega)]
          exact spans.behind _
    | failure error =>
      rcases interrupted_or_final error with ⟨message, rfl⟩ | final
      · obtain ⟨taken, parts, spans⟩ := ih enough pos
        refine ⟨.failure (.stream .interrupted message) :: taken, ?_, ?_⟩
        · rw [signals, Signal.leftBehind_interruption pos, List.cons_append, ← parts]
        · have some : 0 < ((uninterrupted rest).available.data.toList.take room).length := by
            rw [List.length_take]
            exact Nat.lt_min.mpr ⟨pos, Nat.lt_of_lt_of_le pos enough⟩
          exact spans.interruption message (List.ne_nil_of_length_pos some)
      · rw [uninterrupted_failure final, available] at enough
        exact absurd enough (Nat.not_le.mpr pos)

theorem readWithin_complete {room : Nat} {read bytes : ByteArray} {reader : Reader}
    (complete : (readWithin room read reader).1 = .ok (.complete bytes)) :
    (readWithin room read reader).2 = [] := by
  fun_induction readWithin room read reader with
  | case1 => rfl
  | case2 room read message rest ih => exact ih complete
  | case3 => simp at complete
  | case4 => simp at complete
  | case5 room read bytes rest short ih => exact ih complete

theorem readWithin_error {room : Nat} {read : ByteArray} {reader : Reader} {error : ReadError}
    (broken : (readWithin room read reader).1 = .error error) :
    ∃ front, reader = front ++ .failure error :: (readWithin room read reader).2 := by
  fun_induction readWithin room read reader with
  | case1 => simp at broken
  | case2 room read message rest ih =>
    obtain ⟨front, parts⟩ := ih broken
    exact ⟨.failure (.stream .interrupted message) :: front, congrArg _ parts⟩
  | case3 room read cause rest final =>
    obtain rfl : cause = error := by simpa using broken
    exact ⟨[], rfl⟩
  | case4 => simp at broken
  | case5 room read bytes rest short ih =>
    obtain ⟨front, parts⟩ := ih broken
    exact ⟨.data bytes :: front, congrArg _ parts⟩

theorem failure_final {reader : Reader} {error : ReadError}
    (broken : reader.uninterrupted.failure? = some error) (message : String) :
    error ≠ .stream .interrupted message := by
  rw [failure_signals] at broken
  obtain ⟨signal, _, final⟩ := List.exists_of_findSome?_eq_some broken
  rintro rfl
  cases signal with
  | byte b => simp [Signal.final?] at final
  | failure cause =>
    rcases interrupted_or_final cause with ⟨message, rfl⟩ | other
    · simp [Signal.final?] at final
    · rw [Signal.final?_eq other] at final
      exact other message (Option.some.inj final)

/-- A read with a ceiling ends in one of three ways. Enough bytes are too long: just these have been
read, and what is behind them, failures included, is still there. Fewer are complete at the end of
the reader, or end in the failure that follows them. How the bytes are split into pieces does not
show. An interruption is none of the three: the read goes on behind it, and it is never reported. -/
theorem outcomes_are_separate (ceiling : Nat) (reader : Reader) :
    let delivered := reader.uninterrupted.available
    let failure := reader.uninterrupted.failure?
    let answer := (reader.readBounded ceiling).1
    let left := (reader.readBounded ceiling).2
    (ceiling ≤ delivered.size → answer = .ok .tooLong ∧ ∃ taken,
      reader.signals = taken ++ left.signals ∧ Spans taken (delivered.data.toList.take ceiling)) ∧
    (delivered.size < ceiling → failure = none → answer = .ok (.complete delivered) ∧ left = []) ∧
    (∀ error, delivered.size < ceiling → failure = some error →
      answer = .error error ∧ ∃ front, reader = front ++ .failure error :: left) ∧
    (∀ message, answer ≠ .error (.stream .interrupted message)) ∧
    ∀ other : Reader, other.signals = reader.signals →
      (other.readBounded ceiling).1 = answer ∧
        (other.readBounded ceiling).2.signals = left.signals := by
  intro delivered failure answer left
  have answered : answer = if ceiling ≤ delivered.size then .ok .tooLong else
      match failure with
      | none => .ok (.complete delivered)
      | some error => .error error := readBounded_answer ceiling reader
  have behind : left.signals = leftBehind ceiling reader.signals := readBounded_left ceiling reader
  have within (short : delivered.size < ceiling) :
      reader.readBounded ceiling = readWithin ceiling .empty reader :=
    if_neg (Nat.ne_zero_of_lt short)
  refine ⟨fun enough => ⟨answered.trans (if_pos enough), ?_⟩, fun short clean => ?_,
    fun error short broken => ?_, fun message reported => ?_, fun other same => ?_⟩
  · rw [behind]
    exact exists_spans enough
  · have complete : answer = .ok (.complete delivered) := by
      rw [answered, if_neg (Nat.not_le.mpr short), clean]
    refine ⟨complete, ?_⟩
    simp only [answer, left, within short] at complete ⊢
    exact readWithin_complete complete
  · have stopped : answer = .error error := by
      rw [answered, if_neg (Nat.not_le.mpr short), broken]
    refine ⟨stopped, ?_⟩
    simp only [answer, left, within short] at stopped ⊢
    exact readWithin_error stopped
  · rw [reported] at answered
    split at answered
    · contradiction
    · cases broken : failure with
      | none => simp [broken] at answered
      | some error =>
        rw [broken] at answered
        exact failure_final broken message (Except.error.inj answered).symm
  · have sameBytes : other.uninterrupted.available = delivered := by
      rw [← content_ext_iff, available_signals, available_signals, same]
    have sameEnd : other.uninterrupted.failure? = failure := by
      rw [failure_signals, same, ← failure_signals]
    refine ⟨?_, by rw [behind, readBounded_left, same]⟩
    rw [readBounded_answer, sameBytes, sameEnd, answered]

def interruptedReader : Reader :=
  [.data "abc".toUTF8, .failure (.stream .interrupted "again"), .data "def".toUTF8]

theorem interrupted_reader_separated :
    (interruptedReader.readBounded 4).1 = .ok .tooLong ∧
      interruptedReader.readBounded 8 = (.ok (.complete "abcdef".toUTF8), []) := by
  have ⟨long, _⟩ := outcomes_are_separate 4 interruptedReader
  have ⟨_, complete, _⟩ := outcomes_are_separate 8 interruptedReader
  have ⟨answered, empty⟩ := complete (by decide) rfl
  exact ⟨(long (by decide)).1, Prod.ext answered empty⟩

/-- The first failure is an interruption, and it is not what the read answers. -/
theorem interruption_goes_unreported :
    interruptedReader.available.size < 8 ∧
      interruptedReader.failure? = some (.stream .interrupted "again") ∧
      (interruptedReader.readBounded 8).1 ≠ .error (.stream .interrupted "again") :=
  ⟨by decide, rfl, nofun⟩

end Depot.Reader
