import EspIotivity.Adapter.Send
import EspIotivity.Foundation.Spans

/-!
# The loop of `oc_send_buffer`

The loop offers `sendto` what is left of the message until it has taken all of
it or returns a negative number.  Every step depends on what `sendto` returned
before; as long as that is negative or at least 1 and at most what was offered,
the loop ends, and hands the bytes over once and in order.
-/

namespace EspIotivity.Adapter

open EspIotivity.Foundation

/-- What the `k`th `sendto` returns when it is offered that many bytes. -/
structure SendtoEnv where
  result : Nat → Nat → Int
  bounded : ∀ k count, result k count < 0 ∨
    1 ≤ result k count ∧ result k count ≤ count

/-- A `sendto` of `count` bytes from `message->data + offset` on. -/
structure SendAttempt where
  sock : Int
  receiver : SockaddrStorage
  offset : Int
  count : Nat
  result : Int
  deriving DecidableEq, Repr

inductive SendEnding where
  | completed
  | warned
  deriving DecidableEq, Repr

structure SendRun where
  attempts : List SendAttempt
  ending : SendEnding
  deriving DecidableEq, Repr

def SendRun.after (attempt : SendAttempt) (run : SendRun) : SendRun :=
  { run with attempts := attempt :: run.attempts }

section Loop

variable (sock : Int) (receiver : SockaddrStorage) (message : OcMessage)
  (env : SendtoEnv)

def sendAttempt (k : Nat) (bytesSent : Int) : SendAttempt :=
  let count := toSizeT (message.length - bytesSent)
  ⟨sock, receiver, bytesSent, count, env.result k count⟩

/-- The loop from its `k`th pass on; `none` when the fuel does not last. -/
def sendFrom : Nat → Nat → Int → Option SendRun
  | 0, _, _ => none
  | fuel + 1, k, bytesSent =>
      if bytesSent < toInt32 message.length then
        let attempt := sendAttempt sock receiver message env k bytesSent
        if attempt.result < 0 then some ⟨[attempt], .warned⟩
        else
          (sendFrom fuel (k + 1) (toInt32 (bytesSent + attempt.result))).map
            (.after attempt)
      else some ⟨[], .completed⟩

end Loop

/-- The positions that the attempt has taken. -/
def SendAttempt.span (attempt : SendAttempt) : Option Span :=
  if h : 0 < attempt.result then
    some ⟨attempt.offset.toNat, attempt.offset.toNat + attempt.result.toNat,
      by omega⟩
  else none

def SendRun.spans (run : SendRun) : List Span :=
  run.attempts.filterMap SendAttempt.span

/-- The bytes that were taken, in the order of the calls. -/
def SendRun.bytes (run : SendRun) (message : OcMessage) : List UInt8 :=
  run.spans.flatMap (·.slice message.data)

/-- The run takes the message from `start` to `stop`. -/
structure HandsOver (sock : Int) (receiver : SockaddrStorage)
    (message : OcMessage) (start : Nat) (run : SendRun) (stop : Nat) :
    Prop where
  target : ∀ attempt ∈ run.attempts,
    attempt.sock = sock ∧ attempt.receiver = receiver
  inside : ∀ attempt ∈ run.attempts,
    0 ≤ attempt.offset ∧ attempt.offset + attempt.count ≤ message.length
  chained : Chained start run.spans stop
  completed : run.ending = .completed → stop = message.length ∧
    ∀ attempt ∈ run.attempts, 0 < attempt.result
  warned : run.ending = .warned → stop < message.length ∧
    ∃ before last, run.attempts = before ++ [last] ∧ last.result < 0 ∧
      ∀ attempt ∈ before, 0 < attempt.result

/--
Each attempt offers the whole rest of the message, and its result is what
`sendto` returns for that; `k` calls went before the first.
-/
def Answered (message : OcMessage) (env : SendtoEnv) (k : Nat)
    (attempts : List SendAttempt) : Prop :=
  ∀ j (attempt : SendAttempt), attempts[j]? = some attempt →
    attempt.offset + attempt.count = message.length ∧
      attempt.result = env.result (k + j) attempt.count

/-! ## One pass of the loop -/

/-- Where the loop stands between two passes; nothing has wrapped. -/
structure Progress (message : OcMessage) (offset : Nat) : Prop where
  fits : message.length < 2147483648
  le : offset ≤ message.length

section Pass

variable {sock : Int} {receiver : SockaddrStorage} {message : OcMessage}
  {env : SendtoEnv} {offset : Nat}

theorem Progress.test (h : Progress message offset) :
    (offset : Int) < toInt32 message.length ↔ offset < message.length := by
  have hfits := h.fits
  rw [toInt32_of_lt (Int.natCast_nonneg _) (by omega)]
  exact Int.ofNat_lt

theorem Progress.advance (h : Progress message offset) {x : Nat}
    (hx : x ≤ message.length - offset) :
    toInt32 (offset + x) = (offset + x : Nat) ∧
      Progress message (offset + x) := by
  obtain ⟨hfits, hle⟩ := h
  refine ⟨?_, hfits, by omega⟩
  rw [toInt32_of_lt (by omega) (by omega)]
  rfl

variable (sock receiver env) in
theorem sendAttempt_count (h : Progress message offset) (k : Nat) :
    (sendAttempt sock receiver message env k offset).count =
      message.length - offset := by
  obtain ⟨hfits, hle⟩ := h
  change toSizeT (message.length - offset) = _
  rw [toSizeT_of_lt (by omega) (by omega)]
  omega

variable (sock receiver env) in
/-- What `sendto` takes is some of the rest of the message, if anything. -/
theorem sendAttempt_result (h : Progress message offset) (k : Nat) :
    (sendAttempt sock receiver message env k offset).result < 0 ∨
      ∃ x : Nat, (sendAttempt sock receiver message env k offset).result = x ∧
        0 < x ∧ x ≤ message.length - offset := by
  have hcount := sendAttempt_count sock receiver env h k
  have hbounded : (sendAttempt sock receiver message env k offset).result < 0 ∨
      1 ≤ (sendAttempt sock receiver message env k offset).result ∧
        (sendAttempt sock receiver message env k offset).result ≤
          (sendAttempt sock receiver message env k offset).count :=
    env.bounded k _
  rw [hcount] at hbounded
  refine hbounded.imp_right fun ⟨hlo, hhi⟩ => ?_
  obtain ⟨x, hx⟩ := Int.eq_ofNat_of_zero_le (Int.one_nonneg.trans hlo)
  exact ⟨x, hx, by omega, by omega⟩

theorem answered_nil {k : Nat} : Answered message env k [] := by
  intro j attempt hattempt
  simp at hattempt

variable (sock receiver env) in
theorem answered_cons (h : Progress message offset) {k : Nat}
    {attempts : List SendAttempt}
    (hlater : Answered message env (k + 1) attempts) :
    Answered message env k
      (sendAttempt sock receiver message env k offset :: attempts) := by
  have hcount := sendAttempt_count sock receiver env h k
  have hle := h.le
  intro j attempt hattempt
  cases j with
  | zero =>
      cases hattempt
      refine ⟨?_, rfl⟩
      rw [hcount]
      change (offset : Int) + _ = _
      omega
  | succ j =>
      have hnext := hlater j attempt hattempt
      rwa [Nat.add_right_comm] at hnext

theorem handsOver_completed :
    HandsOver sock receiver message message.length ⟨[], .completed⟩
      message.length := by
  constructor
  case target => simp
  case inside => simp
  case chained => rfl
  case completed => simp
  case warned =>
    intro h
    cases h

theorem handsOver_warned (h : Progress message offset) {k : Nat}
    (hlt : offset < message.length)
    (hfailed : (sendAttempt sock receiver message env k offset).result < 0) :
    HandsOver sock receiver message offset
      ⟨[sendAttempt sock receiver message env k offset], .warned⟩ offset := by
  have hcount := sendAttempt_count sock receiver env h k
  have hspan : (sendAttempt sock receiver message env k offset).span = none :=
    dif_neg hfailed.not_gt
  constructor
  case target => simp [sendAttempt]
  case inside =>
    rw [List.forall_mem_singleton, hcount]
    change 0 ≤ (offset : Int) ∧ (offset : Int) + _ ≤ _
    omega
  case chained =>
    rw [SendRun.spans, List.filterMap_cons, hspan]
    rfl
  case completed =>
    intro h
    cases h
  case warned =>
    intro _
    exact ⟨hlt, [], _, rfl, hfailed, by simp⟩

theorem HandsOver.after {run : SendRun} {stop x k : Nat}
    (h : Progress message offset) (hx : 0 < x)
    (hresult : (sendAttempt sock receiver message env k offset).result = x)
    (hrun : HandsOver sock receiver message (offset + x) run stop) :
    HandsOver sock receiver message offset
      (run.after (sendAttempt sock receiver message env k offset)) stop := by
  have hcount := sendAttempt_count sock receiver env h k
  have hspan : (sendAttempt sock receiver message env k offset).span =
      some ⟨offset, offset + x, by omega⟩ := by
    simp only [SendAttempt.span, hresult]
    rw [dif_pos (by omega)]
    rfl
  have hpos : 0 < (sendAttempt sock receiver message env k offset).result := by
    omega
  constructor
  case target =>
    rw [SendRun.after, List.forall_mem_cons]
    exact ⟨⟨rfl, rfl⟩, hrun.target⟩
  case inside =>
    rw [SendRun.after, List.forall_mem_cons, hcount]
    refine ⟨?_, hrun.inside⟩
    have hle := h.le
    change 0 ≤ (offset : Int) ∧ (offset : Int) + _ ≤ _
    omega
  case chained =>
    rw [SendRun.spans, SendRun.after, List.filterMap_cons, hspan]
    exact ⟨rfl, hrun.chained⟩
  case completed =>
    intro hending
    obtain ⟨hstop, hall⟩ := hrun.completed hending
    refine ⟨hstop, ?_⟩
    rw [SendRun.after, List.forall_mem_cons]
    exact ⟨hpos, hall⟩
  case warned =>
    intro hending
    obtain ⟨hstop, before, last, hattempts, hlast, hbefore⟩ :=
      hrun.warned hending
    refine ⟨hstop, sendAttempt sock receiver message env k offset :: before,
      last, ?_, hlast, ?_⟩
    · rw [SendRun.after, hattempts]
      rfl
    · rw [List.forall_mem_cons]
      exact ⟨hpos, hbefore⟩

theorem sendFrom_stop (h : Progress message offset)
    (hstop : offset = message.length) (fuel k : Nat) :
    sendFrom sock receiver message env (fuel + 1) k offset =
      some ⟨[], .completed⟩ := by
  rw [sendFrom, if_neg (by rw [h.test]; omega)]

theorem sendFrom_warned (h : Progress message offset)
    (hlt : offset < message.length) {k : Nat}
    (hfailed : (sendAttempt sock receiver message env k offset).result < 0)
    (fuel : Nat) : sendFrom sock receiver message env (fuel + 1) k offset =
      some ⟨[sendAttempt sock receiver message env k offset], .warned⟩ := by
  rw [sendFrom, if_pos (h.test.mpr hlt)]
  exact if_pos hfailed

theorem sendFrom_sent (h : Progress message offset)
    (hlt : offset < message.length) {k x : Nat}
    (hresult : (sendAttempt sock receiver message env k offset).result = x)
    (hx : x ≤ message.length - offset) (fuel : Nat) :
    sendFrom sock receiver message env (fuel + 1) k offset =
      (sendFrom sock receiver message env fuel (k + 1)
        (offset + x : Nat)).map
          (.after (sendAttempt sock receiver message env k offset)) := by
  rw [sendFrom, if_pos (h.test.mpr hlt)]
  dsimp only
  rw [hresult, if_neg (by omega), (h.advance hx).1]

end Pass

/-! ## The whole loop -/

/-- By the number of bytes left, which every pass but the last lowers. -/
theorem sendFrom_progress (sock : Int) (receiver : SockaddrStorage)
    {message : OcMessage} (env : SendtoEnv) (k : Nat) {offset : Nat}
    (h : Progress message offset) : ∃ run stop,
      (∀ fuel, message.length - offset < fuel →
        sendFrom sock receiver message env fuel k offset = some run) ∧
      HandsOver sock receiver message offset run stop ∧
      Answered message env k run.attempts := by
  induction hleft : message.length - offset using Nat.strong_induction_on
    generalizing k offset with
  | _ left ih =>
      rcases h.le.eq_or_lt with hstop | hlt
      · refine ⟨⟨[], .completed⟩, message.length, ?_, ?_, ?_⟩
        · intro fuel hfuel
          obtain ⟨fuel, rfl⟩ := Nat.exists_eq_add_one_of_ne_zero hfuel.ne_bot
          exact sendFrom_stop h hstop fuel k
        · rw [hstop]
          exact handsOver_completed
        · exact answered_nil
      · rcases sendAttempt_result sock receiver env h k with
          hfailed | ⟨x, hresult, hx, hroom⟩
        · refine ⟨_, offset, ?_, handsOver_warned h hlt hfailed,
            answered_cons sock receiver env h answered_nil⟩
          intro fuel hfuel
          obtain ⟨fuel, rfl⟩ := Nat.exists_eq_add_one_of_ne_zero hfuel.ne_bot
          exact sendFrom_warned h hlt hfailed fuel
        · obtain ⟨run, stop, hrun, hands, hanswered⟩ :=
            ih (message.length - (offset + x)) (by omega) (k + 1)
              (h.advance hroom).2 rfl
          refine ⟨_, stop, ?_, hands.after h hx hresult,
            answered_cons sock receiver env h hanswered⟩
          intro fuel hfuel
          obtain ⟨fuel, rfl⟩ := Nat.exists_eq_add_one_of_ne_zero hfuel.ne_bot
          rw [sendFrom_sent h hlt hresult hroom, hrun fuel (by omega)]
          rfl

def SendAttempt.call (message : OcMessage) (attempt : SendAttempt) :
    SendCall :=
  sendCall attempt.sock attempt.receiver message attempt.offset.toNat

/-- The same loop as `sendLoop` runs through the results it is given. -/
theorem sendLoop_results {sock : Int} {receiver : SockaddrStorage}
    {message : OcMessage} {env : SendtoEnv} {fuel k offset : Nat}
    (h : Progress message offset) {run : SendRun}
    (hrun : sendFrom sock receiver message env fuel k offset = some run) :
    sendLoop sock receiver message (run.attempts.map (·.result)) offset =
      run.attempts.map (·.call message) := by
  induction fuel generalizing k offset run with
  | zero => cases hrun
  | succ fuel ih =>
      rcases h.le.eq_or_lt with hstop | hlt
      · rw [sendFrom_stop h hstop] at hrun
        cases hrun
        rw [List.map_nil, sendLoop, if_neg (by rw [h.test]; omega)]
        rfl
      · have htest := h.test.mpr hlt
        rcases sendAttempt_result sock receiver env h k with
          hfailed | ⟨x, hresult, hx, hroom⟩
        · rw [sendFrom_warned h hlt hfailed] at hrun
          cases hrun
          rw [List.map_singleton, sendLoop, if_pos htest, if_pos hfailed]
          rfl
        · rw [sendFrom_sent h hlt hresult hroom] at hrun
          obtain ⟨rest, hrest, rfl⟩ := Option.map_eq_some_iff.mp hrun
          have hlater := ih (h.advance hroom).2 hrest
          rw [SendRun.after, List.map_cons, hresult, sendLoop, if_pos htest,
            if_neg (by omega), Int.toNat_natCast, hlater]
          rfl

/-- The calls of `oc_send_buffer` on what its `sendto` calls return. -/
theorem ocSendBuffer_run {cfg : BuildConfig} {union : AddrUnion}
    {s : AdapterState} {message : OcMessage} {env : SendtoEnv} {fuel : Nat}
    {run : SendRun} {ref : ContextRef}
    (hlength : message.length < 2147483648)
    (hget : getIpContextForDevice cfg message.endpoint.device s = some ref)
    (hrun : sendFrom (sendSock cfg (s.memory ref) message.endpoint.flags)
      (receiverOf cfg union message.endpoint) message env fuel 0 0 =
        some run) :
    ocSendBuffer cfg union s message (run.attempts.map (·.result)) =
      some (run.attempts.map (·.call message)) := by
  have hstart : Progress message 0 := ⟨hlength, Nat.zero_le _⟩
  rw [ocSendBuffer, hget, Option.map_some, sendLoop_results hstart hrun]

/--
The loop ends, reads within the message only and hands over its bytes from 0
on, each once and in order: all of them, or those before a failed call.  Each
call offers the rest of the message and is taken at its word.
-/
theorem sendFrom_handsOver (sock : Int) (receiver : SockaddrStorage)
    {message : OcMessage} (hlength : message.length < 2147483648)
    (env : SendtoEnv) : ∃ run stop,
      (∀ fuel, message.length < fuel →
        sendFrom sock receiver message env fuel 0 0 = some run) ∧
      HandsOver sock receiver message 0 run stop ∧
      (∀ k (attempt : SendAttempt), run.attempts[k]? = some attempt →
        attempt.offset + attempt.count = message.length ∧
          attempt.result = env.result k attempt.count) ∧
      (run.ending = .completed ↔ stop = message.length) ∧
      (run.spans.Pairwise fun span later => span.last ≤ later.first) ∧
      run.bytes message = message.data.take stop := by
  have hstart : Progress message 0 := ⟨hlength, Nat.zero_le _⟩
  obtain ⟨run, stop, hrun, hands, hanswered⟩ :=
    sendFrom_progress sock receiver env 0 hstart
  refine ⟨run, stop, hrun, hands, ?_, ?_, hands.chained.ordered, ?_⟩
  · intro k attempt hattempt
    have hoffered := hanswered k attempt hattempt
    rwa [Nat.zero_add] at hoffered
  · constructor
    · intro hending
      exact (hands.completed hending).1
    · intro hstop
      cases hending : run.ending with
      | completed => rfl
      | warned => exact absurd hstop (hands.warned hending).1.ne
  · exact hands.chained.slices message.data

/-- A `sendto` that takes two bytes of what it is offered. -/
def twoAtATime : SendtoEnv where
  result _ count := if 0 < count then (min 2 count : Nat) else -1
  bounded _ count := by
    split
    · right
      omega
    · left
      decide

def threeBytes : OcMessage :=
  ⟨3, [7, 8, 9], ⟨0, { ipv6 := true }, .ipv6 0 5683 0⟩⟩

theorem threeBytes_handsOver :
    threeBytes.length < 2147483648 ∧
      HandsOver 4 .zero threeBytes 0
        ⟨[⟨4, .zero, 0, 3, 2⟩, ⟨4, .zero, 2, 1, 1⟩], .completed⟩ 3 := by
  obtain ⟨run, stop, hrun, hands, -, hending, -, -⟩ :=
    sendFrom_handsOver 4 .zero (show threeBytes.length < 2147483648 by decide)
      twoAtATime
  have hcomputed : sendFrom 4 .zero threeBytes twoAtATime 4 0 0 =
      some ⟨[⟨4, .zero, 0, 3, 2⟩, ⟨4, .zero, 2, 1, 1⟩], .completed⟩ := by
    decide
  obtain rfl := Option.some.inj ((hrun 4 (by decide)).symm.trans hcomputed)
  obtain rfl : stop = 3 := hending.mp rfl
  exact ⟨by decide, hands⟩

end EspIotivity.Adapter
