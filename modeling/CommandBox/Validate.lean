import CommandBox.RoundTrip

/-! `protocol_validate`: which texts the parser passes without an error. Only the last
result of the loop counts, so several frames with noise between them pass as well. -/
namespace CommandBox
open Memory Progress

/-- A frame without its start and line feed, or such a frame, noise and a shorter text. -/
inductive Passes : List UInt8 → Prop
  | last (m : WireMessage) (crs : Nat) : Passes (m.core ++ List.replicate crs carriageReturn)
  | more (m : WireMessage) (crs : Nat) (noise s : List UInt8) :
    protocolStartChar ∉ noise → Passes s →
    Passes (m.tailWith crs ++ (noise ++ protocolStartChar :: s))

namespace Progress

/-- No error on the text, and a delivery at the line feed behind it. -/
def PassesFrom (p : Progress) (s : List UInt8) : Prop :=
  .error ∉ (Machine.trace next p s).2 ∧
    ∃ type payload, (next (Machine.trace next p s).1 protocolEndChar).2 = .ready type payload

theorem trace_noise (noise : List UInt8) (clear : protocolStartChar ∉ noise) :
    Machine.trace next .waitStart noise = (.waitStart, List.replicate noise.length .inProgress) := by
  induction noise with
  | nil => rfl
  | cons b rest ih =>
    have other : b ≠ protocolStartChar := fun e => clear (e ▸ List.mem_cons_self)
    have tail := ih fun hm => clear (List.mem_cons_of_mem b hm)
    simp only [Machine.trace_cons, next, if_neg other, tail, List.length_cons, List.replicate_succ]

theorem next_line_feed (p : Progress) (inside : p ≠ .waitStart) :
    (next p protocolEndChar).2 = .error ∨
    ∃ type payload, next p protocolEndChar = (.waitStart, .ready type payload) := by
  have digit : Hex.read protocolEndChar = none := by decide
  have text : ¬ IsTextByte protocolEndChar := by decide
  have separator : protocolEndChar ≠ protocolSeparatorChar := by decide
  have other : protocolEndChar ≠ carriageReturn := by decide
  cases p with
  | waitStart => exact absurd rfl inside
  | lenHi | lenLo _ | checkHi _ | checkLo _ _ =>
    left
    simp only [next, digit]
    rfl
  | lenSeparator _ | checkSeparator _ =>
    left
    simp only [next, if_neg separator]
    rfl
  | readBody _ _ =>
    left
    simp only [next, if_neg text]
    rfl
  | frameEnd body check =>
    have ends := deliver_finished body check
    simp only [next, if_neg other, if_true]
    cases delivered : deliver body check with
    | inProgress =>
      rw [delivered] at ends
      contradiction
    | ready type payload => exact .inr ⟨type, payload, rfl⟩
    | error => exact .inl rfl

theorem open_line {s : List UInt8} (clean : .error ∉ (Machine.trace next .lenHi s).2)
    (single : protocolEndChar ∉ s) :
    (Machine.trace next .lenHi s).1 ≠ .waitStart ∧ protocolStartChar ∉ s := by
  have quiet : ∀ o ∈ (Machine.trace next .lenHi s).2, o = .inProgress := by
    intro o ho
    obtain ⟨n, hn, rfl⟩ := List.getElem_of_mem ho
    have inside : n < s.length := by simpa using hn
    cases result : (Machine.trace next .lenHi s).2[n] with
    | inProgress => rfl
    | ready type payload =>
      rw [Machine.trace_output next .lenHi s n inside hn] at result
      obtain ⟨_, _, _, hb, _⟩ := next_ready result
      exact absurd (hb ▸ List.getElem_mem inside) single
    | error =>
      rw [result] at ho
      exact absurd ho clean
  have conserved := trace_conserves .lenHi s
  rw [List.eq_replicate_of_mem quiet, List.map_replicate] at conserved
  have opened : attempts .lenHi = 1 := rfl
  have zero : Outcome.finished .inProgress = 0 := rfl
  rw [opened, zero, List.sum_replicate_nat, Nat.mul_zero] at conserved
  by_cases started : (Machine.trace next .lenHi s).1 = .waitStart
  · simp only [attempts, if_pos started] at conserved
    omega
  · simp only [attempts, if_neg started] at conserved
    refine ⟨started, List.count_eq_zero.mp ?_⟩
    omega

theorem line_frame {s : List UInt8} (clean : .error ∉ (Machine.trace next .lenHi s).2)
    (single : protocolEndChar ∉ s) {type : ProtocolType} {payload : List UInt8}
    (ready : (next (Machine.trace next .lenHi s).1 protocolEndChar).2 = .ready type payload) :
    ∃ (m : WireMessage) (crs : Nat), s = m.core ++ List.replicate crs carriageReturn := by
  have clear := (open_line clean single).2
  have started : (Machine.trace next .waitStart (protocolStartChar :: s)).1 =
      (Machine.trace next .lenHi s).1 := rfl
  rw [← started] at ready
  obtain ⟨m, crs, _, _, before, hs⟩ := (ready_iff_frame _ _ _ _).mp ready
  have clear' : protocolStartChar ∉ s ++ [protocolEndChar] := by
    intro hm
    rcases List.mem_append.mp hm with hm | hm
    · exact clear hm
    · exact absurd (List.mem_singleton.mp hm) (by decide)
  have whole : [] ++ protocolStartChar :: (s ++ [protocolEndChar]) =
      before ++ protocolStartChar :: m.tailWith crs := hs.symm
  obtain ⟨_, _, tails⟩ :=
    (List.append_cons_inj_of_notMem List.not_mem_nil clear').mp whole
  refine ⟨m, crs, ?_⟩
  rw [WireMessage.tailWith, ← List.append_assoc] at tails
  exact List.append_cancel_right tails

theorem passes_of_trace {s : List UInt8} (h : PassesFrom .lenHi s) : Passes s := by
  induction size : s.length using Nat.strong_induction_on generalizing s with
  | h length ih =>
  obtain ⟨clean, type, payload, ready⟩ := h
  by_cases single : protocolEndChar ∈ s
  · obtain ⟨line, rest, rfl, alone⟩ := List.eq_append_cons_of_mem single
    simp only [Machine.trace_append, Machine.trace_cons, List.mem_append, List.mem_cons,
      not_or] at clean ready
    obtain ⟨cleanLine, noError, cleanRest⟩ := clean
    have inside := (open_line cleanLine alone).1
    rcases next_line_feed _ inside with error | ⟨type', payload', ended⟩
    · exact absurd error.symm noError
    · obtain ⟨m, crs, rfl⟩ := line_frame cleanLine alone (by rw [ended])
      rw [ended] at cleanRest ready
      by_cases started : protocolStartChar ∈ rest
      · obtain ⟨noise, s', rfl, clear⟩ := List.eq_append_cons_of_mem started
        rw [Machine.trace_append, trace_noise noise clear] at cleanRest ready
        simp only [Machine.trace_cons, List.mem_append, List.mem_cons, not_or] at cleanRest ready
        have shorter := ih s'.length (by simp at size; omega)
          ⟨cleanRest.2.2, type, payload, ready⟩ rfl
        have text := Passes.more m crs noise s' clear shorter
        simpa [WireMessage.tailWith] using text
      · rw [trace_noise rest started] at ready
        contradiction
  · obtain ⟨m, crs, rfl⟩ := line_frame clean single ready
    exact .last m crs

theorem trace_of_passes {s : List UInt8} (h : Passes s) : PassesFrom .lenHi s := by
  induction h with
  | last m crs =>
    have whole := trace_tail m crs
    rw [WireMessage.tailWith, ← List.append_assoc, Machine.trace_snoc] at whole
    obtain ⟨_, outputs⟩ := Prod.mk.inj whole
    obtain ⟨quiet, ready⟩ := List.append_inj' outputs rfl
    refine ⟨?_, m.type, m.payload, List.singleton_inj.mp ready⟩
    rw [quiet]
    simp
  | more m crs noise s clear _ ih =>
    obtain ⟨clean, type, payload, ready⟩ := ih
    refine ⟨?_, type, payload, ?_⟩
    · simp [Machine.trace_append, trace_tail, trace_noise noise clear, next_start, clean]
    · simpa [Machine.trace_append, trace_tail, trace_noise noise clear, next_start] using ready

end Progress

theorem validateLoop_trace {parser : Parser} {message : ProtocolMessage} {p : Progress}
    (tracks : Tracks (parser, message) p) (bytes : List UInt8) :
    (.error ∉ (Machine.trace next p bytes).2 ∧
      ∃ final, validateLoop parser message bytes = some (some final) ∧
        Tracks final (Machine.trace next p bytes).1) ∨
    (.error ∈ (Machine.trace next p bytes).2 ∧ validateLoop parser message bytes = some none) := by
  induction bytes generalizing parser message p with
  | nil => exact .inl ⟨List.not_mem_nil, _, rfl, tracks⟩
  | cons b rest ih =>
    obtain ⟨c, step, tracks', replies⟩ := track_step tracks b
    simp only [validateLoop, step, Option.bind_eq_bind, Option.bind_some, Machine.trace_cons,
      List.mem_cons, not_or]
    cases result : (next p b).2 with
    | error =>
      rw [result] at replies
      right
      exact ⟨.inl rfl, if_pos replies.1⟩
    | inProgress =>
      rw [result] at replies
      have goes : c.result ≠ .error := by simp [replies.1]
      rw [if_neg goes]
      simpa using ih tracks'
    | ready type payload =>
      rw [result] at replies
      have goes : c.result ≠ .error := by simp [replies.1]
      rw [if_neg goes]
      simpa using ih tracks'

theorem passes_nonempty {s : List UInt8} (h : Passes s) : s.length ≠ 0 := by
  cases h with
  | last m crs =>
    rw [List.length_append, m.core_length]
    omega
  | more m crs noise s _ _ =>
    rw [List.length_append, m.tail_length]
    omega

/-- `protocol_validate` accepts the texts that pass, up to its bound; the bytes behind
the given length are not read. -/
theorem validate_result (raw : Parser) (message : ProtocolMessage) (s rest : List UInt8) :
    (Passes s ∧ s.length ≤ 62 ∧ protocolValidate raw message (s ++ rest) s.length = some 0) ∨
    (¬ (Passes s ∧ s.length ≤ 62) ∧
      protocolValidate raw message (s ++ rest) s.length = some (-1)) := by
  unfold protocolValidate
  by_cases outside : s.length = 0 ∨ s.length > protocolMaxFrameSize - 2
  · right
    refine ⟨?_, if_pos outside⟩
    rintro ⟨passes, size⟩
    rcases outside with empty | long
    · exact passes_nonempty passes empty
    · exact Nat.not_lt.mpr size long
  · have size : s.length ≤ 62 := Nat.not_lt.mp (not_or.mp outside).2
    have bytes : load (s ++ rest) s.length = some s := load_start (List.prefix_append _ _) rfl
    obtain ⟨c, step, tracks, _⟩ := track_step (init_tracks raw message) protocolStartChar
    rw [if_neg outside]
    rcases validateLoop_trace tracks s with ⟨clean, ⟨parser', message'⟩, loop, tracks'⟩ | ⟨error, loop⟩
    · obtain ⟨c', step', _, replies⟩ := track_step tracks' protocolEndChar
      have law := answers_ready (replies_answers replies)
      by_cases ready : c'.result = .messageReady
      · left
        refine ⟨passes_of_trace ⟨clean, law.mp ready⟩, size, ?_⟩
        apply then_some bytes
        apply then_some step
        apply then_some loop
        apply then_some step'
        rw [if_pos ready]
      · right
        refine ⟨fun passes => ready (law.mpr (trace_of_passes passes.1).2), ?_⟩
        apply then_some bytes
        apply then_some step
        apply then_some loop
        apply then_some step'
        rw [if_neg ready]
    · right
      refine ⟨fun passes => (trace_of_passes passes.1).1 error, ?_⟩
      exact then_some bytes <| then_some step <| then_some loop rfl

/-- The text between start character and line feed is one frame without carriage returns. -/
def SpelledOut (s : List UInt8) : Prop :=
  carriageReturn ∉ s ∧
    ∃ type payload, WellFormedFrame (protocolStartChar :: (s ++ [protocolEndChar])) type payload

/-- A whole frame without its start, noise without a start character, a start character and
a text that passes in its turn. -/
def FurtherFrames (s : List UInt8) : Prop :=
  ∃ (m : WireMessage) (crs : Nat) (noise t : List UInt8), protocolStartChar ∉ noise ∧ Passes t ∧
    s = m.tailWith crs ++ (noise ++ protocolStartChar :: t)

theorem further_frames_start {s : List UInt8} (further : FurtherFrames s) :
    protocolStartChar ∈ s := by
  obtain ⟨m, crs, noise, t, _, _, rfl⟩ := further
  simp

theorem passes_cases (s : List UInt8) :
    Passes s ↔
      (∃ type payload,
        WellFormedFrame (protocolStartChar :: (s ++ [protocolEndChar])) type payload) ∨
      FurtherFrames s := by
  constructor
  · intro h
    cases h with
    | last m crs =>
      refine .inl ⟨m.type, m.payload, (wellFormed_iff _ _ _).mpr ⟨m, crs, rfl, rfl, ?_⟩⟩
      rw [List.append_assoc]
      rfl
    | more m crs noise t clear passes => exact .inr ⟨m, crs, noise, t, clear, passes, rfl⟩
  · rintro (⟨type, payload, form⟩ | ⟨m, crs, noise, t, clear, passes, rfl⟩)
    · obtain ⟨m, crs, _, _, whole⟩ := (wellFormed_iff _ _ _).mp form
      rw [WireMessage.frameWith, WireMessage.tailWith, ← List.append_assoc] at whole
      have text := List.append_cancel_right (List.cons.inj whole).2
      rw [text]
      exact .last m crs
    · exact .more m crs noise t clear passes

/-- As `SpelledOut`, except for carriage returns, which the parser allows between the
checksum and the line feed; the bound is that of the function. -/
def AcceptedLine (s : List UInt8) : Prop :=
  (∃ type payload, WellFormedFrame (protocolStartChar :: (s ++ [protocolEndChar])) type payload) ∧
    s.length ≤ 62

theorem validate_single_line (raw : Parser) (message : ProtocolMessage) (s rest : List UInt8)
    (single : ¬ (FurtherFrames s ∧ s.length ≤ 62)) :
    (protocolValidate raw message (s ++ rest) s.length = some 0 ↔ AcceptedLine s) ∧
    (¬ AcceptedLine s → protocolValidate raw message (s ++ rest) s.length = some (-1)) := by
  have line : AcceptedLine s ↔ Passes s ∧ s.length ≤ 62 := by
    unfold AcceptedLine
    rw [passes_cases, or_and_right]
    exact ⟨.inl, fun h => h.resolve_right single⟩
  rw [line]
  rcases validate_result raw message s rest with ⟨passes, size, accepted⟩ | ⟨fails, refused⟩
  · constructor
    · exact ⟨fun _ => ⟨passes, size⟩, fun _ => accepted⟩
    · exact fun fails => absurd ⟨passes, size⟩ fails
  · constructor
    · rw [refused]
      exact ⟨fun e => absurd e (by decide), fun passes => absurd passes fails⟩
    · exact fun _ => refused

/-- `06:STS:OK:56` and a carriage return. -/
def returnedText : List UInt8 := ascii "06:STS:OK:56" ++ [carriageReturn]

theorem validate_single_line_return :
    (protocolValidate blankParser blankMessage (returnedText ++ []) returnedText.length = some 0 ↔
      AcceptedLine returnedText) ∧
    (¬ AcceptedLine returnedText →
      protocolValidate blankParser blankMessage (returnedText ++ []) returnedText.length = some (-1)) :=
  validate_single_line blankParser blankMessage returnedText []
    fun further => absurd (further_frames_start further.1) (by decide)

-- A whole frame and the start of a text that is none.
example : protocolValidate blankParser blankMessage
    (ascii "06:STS:OK:56" ++ protocolEndChar :: ascii "@zz") 16 = some (-1) := by
  decide +kernel

/-- The validator accepts a text that is not `LL:TTT:PAYLOAD:CC`. -/
theorem validate_accepts_return :
    ¬ (protocolValidate blankParser blankMessage returnedText returnedText.length = some 0 ↔
      SpelledOut returnedText) := by
  have accepted : protocolValidate blankParser blankMessage returnedText returnedText.length = some 0 := by
    decide +kernel
  intro h
  exact (h.mp accepted).1 (by decide)

end CommandBox
