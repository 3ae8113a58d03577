import Libesf.Base.Decimal
import Libesf.Base.Framing

/-!
# The log wire format

`Client::send` puts the size of a message in front of it, as eight decimal digits; a `Session` reads eight bytes, takes them for a number with `atoi`, reads that many bytes and hands them to the server. Both sides agree exactly on messages below 10^8 bytes, wherever the stream is cut.
-/

namespace Libesf.Log

def headerSize : Nat := 8

/-- What `Client::send` queues: the size, printed with `sprintf("%0*lu")`, and the message. -/
def frame (msg : Str) : Str := decimalPadded headerSize msg.length ++ msg

/-- Why a session stops reading: an incomplete read removes it from the server's set, and `std::vector::resize` throws on a size no vector can have. -/
inductive Stop where
  | erased
  | lengthError
  deriving DecidableEq, Repr

/-- `m_message.max_size()`. -/
def maxSize : Nat := 2 ^ 63 - 1

/-- The conversion of an `int` to `std::size_t`. -/
def sizeOfInt (n : Int) : Nat := (n % 2 ^ 64).toNat

/-- `Session::M_doReadHeader`: the size of the message, and what follows the header. -/
def doReadHeader (input : Str) : Except Stop (Nat × Str) :=
  if input.length < headerSize then .error .erased
  else
    let size := sizeOfInt (atoi (cstr (input.take headerSize)))
    if maxSize < size then .error .lengthError else .ok (size, input.drop headerSize)

/-- `Session::M_doReadMessage`: the message, and what follows it. -/
def doReadMessage (size : Nat) (input : Str) : Except Stop (Str × Str) :=
  if input.length < size then .error .erased else .ok (input.take size, input.drop size)

/-- One round of the read loop, which ends in `Server::M_notifyMessageReceived`. -/
def readMessage (input : Str) : Except Stop (Str × Str) := do
  let (size, input) ← doReadHeader input
  doReadMessage size input

/-! ### One round -/

theorem doReadHeader_eq_ok {input rest : Str} {size : Nat}
    (h : doReadHeader input = .ok (size, rest)) :
    headerSize ≤ input.length ∧ size = sizeOfInt (atoi (cstr (input.take headerSize))) ∧
      rest = input.drop headerSize := by
  rw [doReadHeader] at h
  split at h
  · cases h
  · rename_i hlen
    dsimp only at h
    split at h
    · cases h
    · cases h
      exact ⟨by omega, rfl, rfl⟩

theorem doReadMessage_eq_ok {size : Nat} {input msg rest : Str}
    (h : doReadMessage size input = .ok (msg, rest)) :
    size ≤ input.length ∧ msg = input.take size ∧ rest = input.drop size := by
  rw [doReadMessage] at h
  split at h
  · cases h
  · cases h
    exact ⟨by omega, rfl, rfl⟩

theorem readMessage_eq_ok {input msg rest : Str} (h : readMessage input = .ok (msg, rest)) :
    msg.length = sizeOfInt (atoi (cstr (input.take headerSize))) ∧
      headerSize + msg.length + rest.length = input.length := by
  rw [readMessage] at h
  cases hheader : doReadHeader input with
  | error stop =>
    rw [hheader] at h
    cases h
  | ok read =>
    obtain ⟨size, body⟩ := read
    rw [hheader] at h
    obtain ⟨hlen, rfl, rfl⟩ := doReadHeader_eq_ok hheader
    obtain ⟨hsize, rfl, rfl⟩ := doReadMessage_eq_ok h
    rw [List.length_drop] at hsize
    refine ⟨?_, ?_⟩
    · rw [List.length_take, List.length_drop]
      omega
    · simp only [List.length_take, List.length_drop]
      omega

/-- The read loop of a session. -/
def readLoop : Reader Str UInt8 Stop where
  next := readMessage
  consumes {input msg rest} h := by
    have hlen := (readMessage_eq_ok h).2
    have : headerSize = 8 := rfl
    omega

/-! ### The loop undoes the framing -/

/-- A size that has at most eight digits. -/
def FitsHeader (msg : Str) : Prop := msg.length < 10 ^ headerSize

theorem doReadHeader_frame {n : Nat} (hn : n < 10 ^ headerSize) (rest : Str) :
    doReadHeader (decimalPadded headerSize n ++ rest) = .ok (n, rest) := by
  have hlen : (decimalPadded headerSize n).length = headerSize := length_decimalPadded (by decide) hn
  have hdigits : ∀ b ∈ decimalPadded headerSize n, isDigit b = true :=
    fun b hb => isDigit_of_mem_decimalPadded hb
  have hsmall : n < 100000000 := hn
  have hsize : sizeOfInt (atoi (cstr (decimalPadded headerSize n))) = n := by
    rw [cstr_eq_self (nul_not_mem_digits hdigits), atoi_of_digits hdigits,
      digitsValue_decimalPadded, sizeOfInt]
    omega
  have hmax : ¬ maxSize < n := by
    rw [maxSize]
    omega
  rw [doReadHeader, if_neg (by rw [List.length_append]; omega), List.take_left' hlen,
    List.drop_left' hlen]
  simp only [hsize, if_neg hmax]

theorem readMessage_frame {msg : Str} (hfits : FitsHeader msg) (rest : Str) :
    readMessage (frame msg ++ rest) = .ok (msg, rest) := by
  rw [readMessage, frame, List.append_assoc, doReadHeader_frame hfits]
  change doReadMessage msg.length (msg ++ rest) = _
  rw [doReadMessage, if_neg (by rw [List.length_append]; omega), List.take_left' rfl,
    List.drop_left' rfl]

theorem readMessage_take_frame {msg : Str} {k : Nat} (hfits : FitsHeader msg)
    (hk : k < (frame msg).length) : readMessage ((frame msg).take k) = .error .erased := by
  have hlen : (decimalPadded headerSize msg.length).length = headerSize :=
    length_decimalPadded (by decide) hfits
  rw [frame, List.length_append, hlen] at hk
  rw [readMessage, frame, List.take_append, hlen]
  by_cases hheader : k < headerSize
  · have hzero : k - headerSize = 0 := by omega
    rw [hzero, List.take_zero, List.append_nil, doReadHeader,
      if_pos (by rw [List.length_take]; omega)]
    rfl
  · rw [List.take_of_length_le (by omega), doReadHeader_frame hfits]
    change doReadMessage msg.length (msg.take (k - headerSize)) = _
    rw [doReadMessage, if_pos (by rw [List.length_take]; omega)]

theorem readLoop_undoes_frame : readLoop.Undoes frame FitsHeader .erased where
  nil := rfl
  whole := readMessage_frame
  cut := readMessage_take_frame

/-- From 10^8 bytes on the size has nine digits or more, and the session reads the first eight as a smaller one. -/
theorem readAll_frame_ne {msg : Str} (hlong : 10 ^ headerSize ≤ msg.length) :
    (readLoop.readAll (frame msg)).1.head? ≠ some msg := by
  intro hdelivered
  cases hread : readMessage (frame msg) with
  | error stop =>
    rw [Reader.readAll_of_error (r := readLoop) hread] at hdelivered
    cases hdelivered
  | ok read =>
    obtain ⟨delivered, rest⟩ := read
    rw [Reader.readAll_of_ok (r := readLoop) hread, List.head?_cons] at hdelivered
    obtain rfl : delivered = msg := Option.some.inj hdelivered
    have hwidth := width_lt_length_decimalPadded (by decide : 0 < headerSize) hlong
    have hdigits : ∀ b ∈ (decimalPadded headerSize delivered.length).take headerSize,
        isDigit b = true :=
      fun b hb => isDigit_of_mem_decimalPadded (List.mem_of_mem_take hb)
    have hvalue := digitsValue_lt hdigits
    have hsize := (readMessage_eq_ok hread).1
    rw [frame, List.take_append_of_le_length (by omega), cstr_eq_self (nul_not_mem_digits hdigits),
      atoi_of_digits hdigits, sizeOfInt] at hsize
    rw [List.length_take, min_eq_left (by omega)] at hvalue
    have hpow : 10 ^ headerSize = 100000000 := rfl
    omega

/-- **The wire format.** Given the first `k` bytes of the frames of messages below 10^8 bytes, a session delivers exactly the messages whose frames lie within them, in order, and then leaves the server; a message of 10^8 bytes or more is never what comes first out of its own frame. -/
theorem readAll_take_frames :
    (∀ msgs : List Str, (∀ msg ∈ msgs, msg.length < 10 ^ 8) → ∀ k : Nat,
      readLoop.readAll ((msgs.flatMap frame).take k) = (Reader.wholeWithin frame k msgs, .erased)) ∧
    ∀ msg : Str, 10 ^ 8 ≤ msg.length → (readLoop.readAll (frame msg)).1.head? ≠ some msg :=
  ⟨fun _ hfits k => Reader.readAll_take_flatMap readLoop_undoes_frame hfits k,
    fun _ hlong => readAll_frame_ne hlong⟩

/-- Two messages, one of them with a NUL, cut one byte before the end of the second, and a message of 10^8 bytes. -/
theorem readAll_take_frames_two :
    readLoop.readAll (([[0, 97], [98]].flatMap frame).take 18) = ([[0, 97]], .erased) ∧
      (readLoop.readAll (frame (List.replicate (10 ^ 8) 97))).1.head? ≠ some
      (List.replicate (10 ^ 8) 97) := by
  have hfits : ∀ msg ∈ ([[0, 97], [98]] : List Str), msg.length < 10 ^ 8 := by decide
  refine ⟨?_, readAll_take_frames.2 _ (List.length_replicate ..).ge⟩
  rw [readAll_take_frames.1 _ hfits 18]
  decide

end Libesf.Log
