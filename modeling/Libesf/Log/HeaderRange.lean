import Libesf.Log.SessionView

/-!
# What a client's bytes can do

A header is any eight bytes, and `atoi` takes each of them for a number below 10^8. But it also reads a sign, and a negative `int` becomes a size above 2^63, at which `resize` throws; the exception leaves `io_context::run` and ends the process. A message is any bytes at all, and the notification of it runs where nothing is caught either.

So one connection can harm the others in exactly two ways: by a header that is a minus sign, perhaps after blanks, and digits that are not all zero, and by a message whose notification does not return.
-/

namespace Libesf.Log

open Transition

/-- A minus sign after blanks, and among the digits that follow one that is not zero. -/
def negativeHeader (header : Str) : Bool :=
  let text := (cstr header).dropWhile isSpace
  text.head? = some 45 && (text.tail.takeWhile isDigit).any (· ≠ 48)

/-! ### The size of a header -/

theorem digitsValue_append_singleton (text : Str) (b : UInt8) :
    digitsValue (text ++ [b]) = 10 * digitsValue text + (b.toNat - 48) := by
  rw [digitsValue, List.foldl_append]
  rfl

theorem digitsValue_eq_zero_iff {text : Str} (hdigits : ∀ b ∈ text, isDigit b = true) :
    digitsValue text = 0 ↔ ∀ b ∈ text, b = 48 := by
  induction text using List.reverseRecOn with
  | nil => simp [digitsValue]
  | append_singleton text b ih =>
    have hb : b.toNat - 48 = 0 ↔ b = 48 := by
      have hdigit := hdigits b (by simp)
      simp only [isDigit, Bool.and_eq_true, decide_eq_true_eq, UInt8.le_iff_toNat_le] at hdigit
      have h48 : (48 : UInt8).toNat = 48 := rfl
      rw [← UInt8.toNat_inj, h48]
      omega
    rw [digitsValue_append_singleton, List.forall_mem_append, List.forall_mem_singleton, ← hb,
      ← ih fun d hd => hdigits d (List.mem_append_left _ hd)]
    omega

theorem isDigit_of_mem_takeWhile {text : Str} : ∀ b ∈ text.takeWhile isDigit, isDigit b = true :=
  fun _ hb => List.mem_takeWhile_imp hb

theorem digitsValue_takeWhile_lt (text : Str) :
    digitsValue (text.takeWhile isDigit) < 10 ^ text.length :=
  lt_of_lt_of_le (digitsValue_lt isDigit_of_mem_takeWhile)
    (Nat.pow_le_pow_right (by decide) (List.takeWhile_sublist isDigit).length_le)

theorem atoi_lt_zero_iff (header : Str) : atoi (cstr header) < 0 ↔ negativeHeader header = true := by
  rw [atoi, negativeHeader]
  by_cases hminus : ((cstr header).dropWhile isSpace).head? = some 45
  · have hzero := digitsValue_eq_zero_iff
      (@isDigit_of_mem_takeWhile ((cstr header).dropWhile isSpace).tail)
    simp only [hminus, if_true, decide_true, Bool.true_and, List.any_eq_true, decide_eq_true_eq]
    rw [Int.neg_neg_iff_pos, Int.natCast_pos, Nat.pos_iff_ne_zero, Ne, hzero]
    simp only [not_forall, ne_eq, exists_prop]
  · simp only [hminus, if_false, decide_false, Bool.false_and, Bool.false_eq_true, iff_false, not_lt]
    split <;> exact Int.natCast_nonneg _

/-- A number read from a text has no more digits than the text has bytes. -/
theorem natAbs_atoi_lt (text : Str) : (atoi text).natAbs < 10 ^ text.length := by
  have hdrop : (text.dropWhile isSpace).length ≤ text.length := List.length_dropWhile_le isSpace text
  have htail : (text.dropWhile isSpace).tail.length ≤ text.length := by
    rw [List.length_tail]
    omega
  have hread : ∀ rest : Str, rest.length ≤ text.length →
      digitsValue (rest.takeWhile isDigit) < 10 ^ text.length :=
    fun rest hrest => lt_of_lt_of_le (digitsValue_takeWhile_lt rest)
      (Nat.pow_le_pow_right (by decide) hrest)
  rw [atoi]
  split
  · rw [Int.natAbs_neg, Int.natAbs_natCast]
    exact hread _ htail
  · split
    · rw [Int.natAbs_natCast]
      exact hread _ htail
    · rw [Int.natAbs_natCast]
      exact hread _ hdrop

theorem natAbs_atoi_header_lt {header : Str} (hlength : header.length = headerSize) :
    (atoi (cstr header)).natAbs < 100000000 := by
  have hcstr : (cstr header).length ≤ 8 := le_of_le_of_eq (List.takeWhile_sublist _).length_le hlength
  exact lt_of_lt_of_le (natAbs_atoi_lt _) (Nat.pow_le_pow_right (by decide) hcstr)

theorem sizeOfHeader_le {header : Str} (hlength : header.length = headerSize)
    (hheader : negativeHeader header = false) : Server.sizeOfHeader header ≤ 99999999 := by
  have hlt := natAbs_atoi_header_lt hlength
  have hnonneg : ¬ atoi (cstr header) < 0 := by
    rw [atoi_lt_zero_iff, hheader]
    exact Bool.false_ne_true
  rw [Server.sizeOfHeader, sizeOfInt]
  omega

theorem maxSize_lt_sizeOfHeader {header : Str} (hlength : header.length = headerSize)
    (hheader : negativeHeader header = true) : maxSize < Server.sizeOfHeader header := by
  have hlt := natAbs_atoi_header_lt hlength
  have hneg := (atoi_lt_zero_iff header).2 hheader
  rw [Server.sizeOfHeader, sizeOfInt, maxSize]
  omega

/-! ### Runs of the server -/

/-- What one client must not be able to break: the process, and the bound on the sizes. -/
structure SizesInRange (s : Server) : Prop where
  alive : s.ioThread ≠ .terminated
  size : ∀ c ∈ s.connections, ∀ op ∈ c.reads, ∀ n, op.awaiting = .message n → n ≤ 99999999

/-- The session a step is about. -/
def ServerAct.session : ServerAct → Option Nat
  | arrive i _ | disconnect i | reset i | readCompletes i _ | readHandler i _ => some i
  | _ => none

/-- The other sessions and the accept loop are as they were. -/
def UnaffectedBy (i : Nat) (s t : Server) : Prop :=
  (∀ j ≠ i, t.connections[j]? = s.connections[j]? ∧ (j ∈ t.sessions ↔ j ∈ s.sessions)) ∧
    t.accepts = s.accepts ∧
    (s.accepts ≠ [] → t.ioThread = s.ioThread)

def Confined (s : Server) (a : ServerAct) : Prop :=
  ∀ i ∈ a.session, ∀ t, s.step a = some t → UnaffectedBy i s t

def Awaiting.isHeader : Awaiting → Bool
  | header => true
  | message _ => false

/-- The bytes that the step hands to the handler of `M_doReadHeader`, or of `M_doReadMessage`. -/
def Server.handed (s : Server) (isHeader : Bool) : ServerAct → Option Str
  | .readHandler i k => do
    let c ← s.connections[i]?
    let op ← c.reads[k]?
    guard (op.awaiting.isHeader = isHeader)
    op.result.getD none
  | _ => none

def NonNegativeHeader (s : Server) (a : ServerAct) : Prop :=
  ∀ header ∈ s.handed true a, negativeHeader header = false

instance (s : Server) (a : ServerAct) : Decidable (NonNegativeHeader s a) :=
  inferInstanceAs (Decidable (∀ header ∈ s.handed true a, negativeHeader header = false))

/-- The notification of the message the step hands over returns. -/
def Returning (s : Server) (a : ServerAct) : Prop :=
  ∀ msg ∈ s.handed false a, s.notificationReturns msg = true

instance (s : Server) (a : ServerAct) : Decidable (Returning s a) :=
  inferInstanceAs (Decidable (∀ msg ∈ s.handed false a, s.notificationReturns msg = true))

def Harmless (s : Server) (a : ServerAct) : Prop := NonNegativeHeader s a ∧ Returning s a

instance (s : Server) (a : ServerAct) : Decidable (Harmless s a) :=
  inferInstanceAs (Decidable (NonNegativeHeader s a ∧ Returning s a))

/-- What a session keeps: a read that has succeeded holds the bytes it asked for, and no message read asks for more than a header can say. -/
structure Sized (v : View) : Prop where
  filled : ∀ op ∈ v.session.reads, ∀ data, op.result = some (some data) →
    data.length = op.awaiting.size
  size : ∀ op ∈ v.session.reads, ∀ n, op.awaiting = .message n → n ≤ 99999999

namespace Sized

variable {v w : View}

theorem append (h : Sized v) {op : Read} (hpending : op.result = none)
    (hsize : ∀ n, op.awaiting = .message n → n ≤ 99999999) :
    Sized { v with session := { v.session with reads := v.session.reads ++ [op] } } where
  filled op' hop' data hdata := by
    obtain hold | hnew := List.mem_append.1 hop'
    · exact h.filled op' hold data hdata
    · rw [List.mem_singleton.1 hnew, hpending] at hdata
      cases hdata
  size op' hop' n hn := by
    obtain hold | hnew := List.mem_append.1 hop'
    · exact h.size op' hold n hn
    · rw [List.mem_singleton.1 hnew] at hn
      exact hsize n hn

theorem set (h : Sized v) {k : Nat} {op : Read} (hop : v.session.reads[k]? = some op)
    (result : Option Str) (hresult : ∀ data, result = some data → data.length = op.awaiting.size) :
    Sized { v with session :=
      { v.session with reads := v.session.reads.set k { op with result := some result } } } where
  filled op' hop' data hdata := by
    obtain hold | rfl := List.mem_or_eq_of_mem_set hop'
    · exact h.filled op' hold data hdata
    · exact hresult data (Option.some.inj hdata)
  size op' hop' n hn := by
    obtain hold | rfl := List.mem_or_eq_of_mem_set hop'
    · exact h.size op' hold n hn
    · exact h.size op (List.mem_of_getElem? hop) n hn

theorem handle (h : Sized v) (k : Nat) (data : Option Str) :
    Sized { v with session := v.session.handle k data } where
  filled op hop := h.filled op (List.mem_of_mem_eraseIdx hop)
  size op hop := h.size op (List.mem_of_mem_eraseIdx hop)

theorem fresh : Sized .fresh where
  filled op hop data hdata := by
    rw [List.mem_singleton.1 hop] at hdata
    cases hdata
  size op hop n hn := by
    rw [List.mem_singleton.1 hop] at hn
    cases hn

theorem move (h : Sized v) {act : SessionAct} (hmove : v.Move act w) : Sized w := by
  cases hmove with
  | arrive bytes hconnected => exact ⟨h.filled, h.size⟩
  | disconnect => exact ⟨h.filled, h.size⟩
  | reset hreads => exact ⟨h.filled, h.size⟩
  | readSucceeds k op hop hpending hsize =>
    have hset := h.set hop (some (v.session.inbox.take op.awaiting.size)) fun data hdata => by
      rw [← Option.some.inj hdata, List.length_take, min_eq_left hsize]
    exact ⟨hset.filled, hset.size⟩
  | readFails k op hop hpending hsize hconnected => exact h.set hop none nofun
  | header k op header hop hawaiting hdecided hsize =>
    have hlength : header.length = headerSize := by
      rw [h.filled op (List.mem_of_getElem? hop) header hdecided, hawaiting]
      rfl
    have hnonneg : negativeHeader header = false := by
      by_contra hneg
      exact absurd (maxSize_lt_sizeOfHeader hlength (by simpa using hneg)) (not_lt.2 hsize)
    refine (h.handle k (some header)).append rfl fun n hn => ?_
    rw [← Awaiting.message.inj hn]
    exact sizeOfHeader_le hlength hnonneg
  | message k n op msg hop hawaiting hdecided =>
    have happend := (h.handle k (some msg)).append
      (rfl : (⟨.header, none⟩ : Read).result = none) nofun
    exact ⟨happend.filled, happend.size⟩
  | failed k op hop hdecided => exact ⟨(h.handle k none).filled, (h.handle k none).size⟩

end Sized

namespace Server

variable {s t : Server}

theorem handed_readHandler {i k : Nat} {c : Session} {op : Read} {data : Option Str}
    (hc : s.connections[i]? = some c) (hop : c.reads[k]? = some op)
    (hdecided : op.result = some data) (isHeader : Bool) :
    s.handed isHeader (.readHandler i k) =
      if op.awaiting.isHeader = isHeader then data else none := by
  simp only [handed, hc, hop, hdecided, Option.bind_eq_bind, Option.bind_some, Option.getD_some]
  by_cases hawaiting : op.awaiting.isHeader = isHeader
  · rw [if_pos hawaiting, guard, if_pos hawaiting]
    rfl
  · rw [if_neg hawaiting, guard, if_neg hawaiting]
    rfl

/-- What comes of an operation that a step hands to its handler. -/
theorem exists_of_mem_handed {a : ServerAct} {isHeader : Bool} {bytes : Str}
    (h : bytes ∈ s.handed isHeader a) :
    ∃ i k c op, a = .readHandler i k ∧ s.connections[i]? = some c ∧ c.reads[k]? = some op ∧
      op.awaiting.isHeader = isHeader ∧ op.result = some (some bytes) := by
  cases a with
  | readHandler i k =>
    obtain ⟨c, hc, h⟩ := Option.bind_eq_some_iff.1 h
    obtain ⟨op, hop, h⟩ := Option.bind_eq_some_iff.1 h
    obtain ⟨_, hguard, h⟩ := Option.bind_eq_some_iff.1 h
    refine ⟨i, k, c, op, rfl, hc, hop, (Option.guard_eq_some' _).1 hguard, ?_⟩
    cases hresult : op.result with
    | none =>
      rw [hresult] at h
      cases h
    | some data =>
      rw [hresult, Option.getD_some] at h
      rw [h]
  | _ => cases h

theorem eq_header {awaiting : Awaiting} (h : awaiting.isHeader = true) : awaiting = .header := by
  cases awaiting with
  | header => rfl
  | message n => cases h

theorem ioThread_readHandler_of_le {i : Nat} {c : Session} {awaiting : Awaiting} {data : Option Str}
    (hsize : ∀ header, awaiting = .header → data = some header → sizeOfHeader header ≤ maxSize)
    (hreturns : ∀ n msg, awaiting = .message n → data = some msg → s.notificationReturns msg = true) :
    (s.readHandler i c awaiting data).ioThread = s.ioThread := by
  refine s.readHandler_cases i c awaiting data (fun _ => rfl)
    (fun header hawaiting hdata hthrows => ?_)
    (fun _ _ _ _ => rfl) (fun _ _ _ _ _ => rfl) (fun n msg hawaiting hdata hescapes => ?_)
  · exact absurd hthrows (not_lt.2 (hsize header hawaiting hdata))
  · rw [hreturns n msg hawaiting hdata] at hescapes
    cases hescapes

theorem ioThread_readHandler_of_lt {header : Str} (hsize : maxSize < sizeOfHeader header) (i : Nat)
    (c : Session) : (s.readHandler i c .header (some header)).ioThread = .terminated := by
  change (if maxSize < sizeOfHeader header then _ else _ : Server).ioThread = _
  rw [if_pos hsize]

theorem ioThread_readHandler_of_escapes {msg : Str}
    (hescapes : ¬ s.notificationReturns msg = true) (i n : Nat) (c : Session) :
    (s.readHandler i c (.message n) (some msg)).ioThread = .terminated := by
  change (if s.notificationReturns msg then _ else _ : Server).ioThread = _
  rw [if_neg hescapes]

end Server

/-- What keeps the server alive. -/
structure Unharmed (s : Server) : Prop where
  alive : s.ioThread ≠ .terminated
  numbered : s.Numbered
  sized : ∀ i v, s.view i = some v → Sized v

namespace Unharmed

variable {s t : Server}

theorem init (returns : List Str → Bool) : Unharmed (.init returns) :=
  ⟨show IoThread.none ≠ .terminated by decide, Server.numbered_init returns, nofun⟩

theorem sizedSession (h : Unharmed s) {i : Nat} {c : Session} (hc : s.connections[i]? = some c) :
    Sized ⟨c, s.deliveredOf i, decide (i ∈ s.sessions)⟩ :=
  h.sized i _ (Server.view_of_getElem? hc)

theorem length_header (h : Unharmed s) {i k : Nat} {c : Session} {op : Read} {header : Str}
    (hc : s.connections[i]? = some c) (hop : c.reads[k]? = some op)
    (hawaiting : op.awaiting = .header) (hdecided : op.result = some (some header)) :
    header.length = headerSize := by
  rw [(h.sizedSession hc).filled op (List.mem_of_getElem? hop) header hdecided, hawaiting]
  rfl

/-- The handler of a read lets nothing escape for a header that is not negative and a message whose notification returns. -/
theorem ioThread_readHandler (h : Unharmed s) {i k : Nat} {c : Session} {op : Read}
    {data : Option Str} (hc : s.connections[i]? = some c) (hop : c.reads[k]? = some op)
    (hdecided : op.result = some data) (hharmless : Harmless s (.readHandler i k)) :
    (s.readHandler i (c.handle k data) op.awaiting data).ioThread = s.ioThread := by
  refine Server.ioThread_readHandler_of_le (fun header hawaiting hdata => ?_)
    (fun n msg hawaiting hdata => ?_)
  · subst hdata
    have hnonneg := hharmless.1 header
      (by rw [Server.handed_readHandler hc hop hdecided, hawaiting]; rfl)
    exact le_trans (sizeOfHeader_le (h.length_header hc hop hawaiting hdecided) hnonneg) (by decide)
  · subst hdata
    exact hharmless.2 msg (by rw [Server.handed_readHandler hc hop hdecided, hawaiting]; rfl)

theorem alive_step (h : Unharmed s) {a : ServerAct} (hharmless : Harmless s a)
    (hstep : s.step a = some t) : t.ioThread ≠ .terminated := by
  cases Server.move_of_step hstep with
  | startThread hconstruction => exact nofun
  | enterRun hio => exact Server.ioThread_checkWork_ne_terminated.2 nofun
  | acceptHandler k ok hio hdecided =>
    rw [Server.ioThread_checkWork_ne_terminated, Server.acceptHandler]
    split <;> exact h.alive
  | readHandler i k c op data hio hc hop hdecided =>
    rw [Server.ioThread_checkWork_ne_terminated, h.ioThread_readHandler hc hop hdecided hharmless]
    exact h.alive
  | _ => exact h.alive

theorem step (s : Server) (a : ServerAct) (t : Server) (h : Unharmed s) (hharmless : Harmless s a)
    (hstep : s.step a = some t) : Unharmed t := by
  have halive := h.alive_step hharmless hstep
  exact ⟨halive, Server.numbered_step s a t h.numbered hstep,
    Server.view_invariant Sized.fresh (fun _ _ _ hv hmove => hv.move hmove) h.sized h.numbered
      hstep halive⟩

theorem alive_readHandler {i k : Nat} {c : Session} {op : Read} {data : Option Str}
    (hc : s.connections[i]? = some c) (hop : c.reads[k]? = some op) (hdecided : op.result = some data)
    (hstep : s.step (.readHandler i k) = some t) (halive : t.ioThread ≠ .terminated) :
    (s.readHandler i (c.handle k data) op.awaiting data).ioThread ≠ .terminated := by
  cases Server.move_of_step hstep with
  | readHandler _ _ c' op' data' hio hc' hop' hdecided' =>
    obtain rfl := Option.some.inj (hc.symm.trans hc')
    obtain rfl := Option.some.inj (hop.symm.trans hop')
    obtain rfl := Option.some.inj (hdecided.symm.trans hdecided')
    exact Server.ioThread_checkWork_ne_terminated.1 halive

theorem sizesInRange (h : Unharmed s) : SizesInRange s where
  alive := h.alive
  size c hc := by
    obtain ⟨i, hi⟩ := List.mem_iff_getElem?.1 hc
    exact (h.sizedSession hi).size

/-- A negative header is the end of the process, and so is a notification that does not return. -/
theorem not_sizesInRange (h : Unharmed s) {a : ServerAct} (hharm : ¬ Harmless s a)
    (hstep : s.step a = some t) : ¬ SizesInRange t := by
  intro hsafe
  apply hharm
  constructor
  · intro header hheader
    obtain ⟨i, k, c, op, rfl, hc, hop, hawaiting, hdecided⟩ := Server.exists_of_mem_handed hheader
    obtain hawaiting := Server.eq_header hawaiting
    have halive := alive_readHandler hc hop hdecided hstep hsafe.alive
    by_contra hnegative
    rw [Bool.not_eq_false] at hnegative
    rw [hawaiting] at halive
    exact halive (Server.ioThread_readHandler_of_lt
      (maxSize_lt_sizeOfHeader (h.length_header hc hop hawaiting hdecided) hnegative) i _)
  · intro msg hmsg
    obtain ⟨i, k, c, op, rfl, hc, hop, hawaiting, hdecided⟩ := Server.exists_of_mem_handed hmsg
    have halive := alive_readHandler hc hop hdecided hstep hsafe.alive
    cases hmessage : op.awaiting with
    | header =>
      rw [hmessage] at hawaiting
      cases hawaiting
    | message n =>
      by_contra hescapes
      rw [hmessage] at halive
      exact halive (Server.ioThread_readHandler_of_escapes hescapes i n _)

end Unharmed

/-! ### The other sessions -/

namespace UnaffectedBy

variable {s t : Server}

theorem setSession (i : Nat) (c : Session) : UnaffectedBy i s (s.setSession i c) :=
  ⟨fun _ hj => ⟨List.getElem?_set_ne hj.symm, Iff.rfl⟩, rfl, fun _ => rfl⟩

theorem erase (i : Nat) (c : Session) : UnaffectedBy i s ((s.setSession i c).erase i) :=
  ⟨fun _ hj => ⟨List.getElem?_set_ne hj.symm, List.mem_erase_of_ne hj⟩, rfl, fun _ => rfl⟩

theorem checkWork {i : Nat} (h : UnaffectedBy i s t) : UnaffectedBy i s t.checkWork := by
  refine ⟨fun j hj => ?_, ?_, fun haccepts => ?_⟩
  · rw [Server.connections_checkWork, Server.sessions_checkWork]
    exact h.1 j hj
  · rw [Server.accepts_checkWork]
    exact h.2.1
  · rw [Server.checkWork_eq_self (by rw [h.2.1]; exact haccepts)]
    exact h.2.2 haccepts

theorem readHandler (i : Nat) (c : Session) (awaiting : Awaiting) (data : Option Str)
    (hio : (s.readHandler i c awaiting data).ioThread = s.ioThread) :
    UnaffectedBy i s (s.readHandler i c awaiting data) := by
  revert hio
  refine s.readHandler_cases i c awaiting data (fun _ _ => ?_) (fun header _ _ _ hio => ?_)
    (fun header _ _ _ _ => ?_)
    (fun n msg _ _ _ _ => ?_) (fun n msg _ _ _ hio => ?_)
  · exact erase i c
  · exact ⟨(setSession i c).1, rfl, fun _ => hio⟩
  · exact setSession i _
  · exact ⟨(setSession i c.doReadHeader).1, rfl, fun _ => rfl⟩
  · exact ⟨(setSession i c).1, rfl, fun _ => hio⟩

end UnaffectedBy

theorem Unharmed.confined {s : Server} {a : ServerAct} (h : Unharmed s) (hharmless : Harmless s a) :
    Confined s a := by
  intro i hi t hstep
  cases Server.move_of_step hstep with
  | arrive i' bytes c hc hconnected =>
    obtain rfl := Option.some.inj hi
    exact .setSession i' _
  | disconnect i' c hc =>
    obtain rfl := Option.some.inj hi
    exact .setSession i' _
  | reset i' c hc hreads =>
    obtain rfl := Option.some.inj hi
    exact .setSession i' _
  | readSucceeds i' k c op hc hop hpending hsize =>
    obtain rfl := Option.some.inj hi
    exact .setSession i' _
  | readFails i' k c op hc hop hpending hsize hconnected =>
    obtain rfl := Option.some.inj hi
    exact .setSession i' _
  | readHandler i' k c op data hio hc hop hdecided =>
    obtain rfl := Option.some.inj hi
    exact .checkWork (.readHandler i' _ _ _ (h.ioThread_readHandler hc hop hdecided hharmless))
  | _ => cases hi

/-- **Any bytes at all.** In a run of the server, whatever the clients send and wherever they are cut off, nothing escapes from the event loop, no session reads a message of more than 99999999 bytes and no step of one session touches the others or the accept loop, if and only if no handler is given a header that is negative or a message whose notification does not return. -/
theorem sizesInRange_iff_harmless {returns : List Str → Bool} {acts : List ServerAct} {s : Server}
    (hrun : run Server.step (.init returns) acts = some s) :
    (Always Server.step SizesInRange (.init returns) acts ∧
      Along Server.step Confined (.init returns) acts) ↔
      Along Server.step Harmless (.init returns) acts := by
  have hiff : Always Server.step SizesInRange (.init returns) acts ↔
      Along Server.step Harmless (.init returns) acts :=
    always_iff_along (fun _ h => h.sizesInRange) Unharmed.step (fun _ _ _ h => h.not_sizesInRange)
      (Unharmed.init returns) hrun
  exact ⟨fun h => hiff.1 h.1,
    fun h => ⟨hiff.2 h, h.imp (fun _ _ => Unharmed.confined) Unharmed.step (Unharmed.init returns)⟩⟩

/-- A session is started, and its peer sends `header` and `body` in one piece. -/
def oneFrame (header body : Str) : List ServerAct :=
  [.startThread, .doAccept, .enterRun, .acceptCompletes 0 true, .acceptHandler 0,
    .arrive 0 (header ++ body), .readCompletes 0 0, .readHandler 0 0]

/-- A server whose subscribers accept every message. -/
def receptive (_ : List Str) : Bool := true

theorem sizesInRange_iff_harmless_cut :
    ∃ s, run Server.step (.init receptive) (oneFrame (ascii "      +9") (ascii "cut")) = some s ∧
      Always Server.step SizesInRange (.init receptive)
        (oneFrame (ascii "      +9") (ascii "cut")) := by
  obtain ⟨s, hrun, -⟩ := exists_of_any_run Server.step (.init receptive)
    (oneFrame (ascii "      +9") (ascii "cut"))
    (fun s => s.ioThread == .running) (by decide +kernel)
  exact ⟨s, hrun, ((sizesInRange_iff_harmless hrun).2 (by decide +kernel)).1⟩

/-- Eight bytes end the process: -1 is read as 2^64 - 1. -/
theorem negativeHeader_terminates :
    ∃ s, run Server.step (.init receptive) (oneFrame (ascii "-0000001") []) = some s ∧
      s.ioThread = .terminated ∧
      Server.sizeOfHeader (ascii "-0000001") = 2 ^ 64 - 1 ∧ ¬ SizesInRange s := by
  obtain ⟨s, hrun, hp⟩ := exists_of_any_run Server.step (.init receptive)
    (oneFrame (ascii "-0000001") [])
    (fun s => s.ioThread == .terminated) (by decide +kernel)
  have hio : s.ioThread = .terminated := by simpa using hp
  exact ⟨s, hrun, hio, by decide +kernel, fun hsafe => hsafe.alive hio⟩

end Libesf.Log
