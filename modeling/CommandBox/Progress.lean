import CommandBox.Wire
import CommandBox.Lib.Machine
import Mathlib.Algebra.GroupWithZero.Nat

/-! The parser as a machine on texts. A progress value holds what was read since the
start character, so `textWith` recovers those bytes from it; the buffers, indices and
stale cells of the program do not occur. The stream theorems are proved here. -/
namespace CommandBox

inductive Progress where
  | waitStart
  | lenHi
  | lenLo (hi : Fin 16)
  | lenSeparator (len : Nat)
  | readBody (len : Nat) (read : List UInt8)
  | checkSeparator (body : List UInt8)
  | checkHi (body : List UInt8)
  | checkLo (body : List UInt8) (hi : Fin 16)
  | frameEnd (body : List UInt8) (check : Nat)
  deriving DecidableEq

inductive Outcome where
  | inProgress
  | ready (type : ProtocolType) (payload : List UInt8)
  | error
  deriving DecidableEq

def typeOf (letters : List UInt8) : Option ProtocolType :=
  [.cmd, .dat, .evt, .sts, .ack, .err].find? fun type => protocolTypeToText type = letters

def splitBody : List UInt8 → Option (ProtocolType × List UInt8)
  | a :: b :: c :: separator :: payload =>
    if separator = protocolSeparatorChar then (typeOf [a, b, c]).map fun type => (type, payload)
    else none
  | _ => none

namespace Progress

def reject (b : UInt8) : Progress × Outcome :=
  (if b = protocolStartChar then lenHi else waitStart, .error)

/-- A complete text: deliver it when the checksum and the body are right. -/
def deliver (body : List UInt8) (check : Nat) : Outcome :=
  if check = (Xor.sum (checkedText body)).toNat then
    match splitBody body with
    | some (type, payload) => .ready type payload
    | none => .error
  else .error

def next : Progress → UInt8 → Progress × Outcome
  | waitStart, b => (if b = protocolStartChar then lenHi else waitStart, .inProgress)
  | lenHi, b =>
    match Hex.read b with
    | some hi => (lenLo hi, .inProgress)
    | none => reject b
  | lenLo hi, b =>
    match Hex.read b with
    | some lo =>
      if 4 ≤ 16 * hi.val + lo.val ∧ 16 * hi.val + lo.val ≤ 52 then
        (lenSeparator (16 * hi.val + lo.val), .inProgress)
      else reject b
    | none => reject b
  | lenSeparator len, b =>
    if b = protocolSeparatorChar then (readBody len [], .inProgress) else reject b
  | readBody len read, b =>
    if IsTextByte b then
      (if read.length + 1 = len then checkSeparator (read ++ [b]) else readBody len (read ++ [b]),
        .inProgress)
    else reject b
  | checkSeparator body, b =>
    if b = protocolSeparatorChar then (checkHi body, .inProgress) else reject b
  | checkHi body, b =>
    match Hex.read b with
    | some hi => (checkLo body hi, .inProgress)
    | none => reject b
  | checkLo body hi, b =>
    match Hex.read b with
    | some lo => (frameEnd body (16 * hi.val + lo.val), .inProgress)
    | none => reject b
  | frameEnd body check, b =>
    if b = carriageReturn then (frameEnd body check, .inProgress)
    else if b = protocolEndChar then (waitStart, deliver body check)
    else reject b

/-- What the length check and the body alphabet guarantee in each state. -/
def Valid : Progress → Prop
  | waitStart | lenHi | lenLo _ => True
  | lenSeparator len => 4 ≤ len ∧ len ≤ 52
  | readBody len read => 4 ≤ len ∧ len ≤ 52 ∧ read.length < len ∧ ∀ b ∈ read, IsTextByte b
  | checkSeparator body | checkHi body | checkLo body _ =>
    4 ≤ body.length ∧ body.length ≤ 52 ∧ ∀ b ∈ body, IsTextByte b
  | frameEnd body check =>
    4 ≤ body.length ∧ body.length ≤ 52 ∧ (∀ b ∈ body, IsTextByte b) ∧ check < 256

/-- The bytes from the start character on; carriage returns occur at the end only. -/
def textWith (crs : Nat) : Progress → List UInt8
  | waitStart => []
  | lenHi => [protocolStartChar]
  | lenLo hi => [protocolStartChar, Hex.digit hi]
  | lenSeparator len => protocolStartChar :: Hex.text len
  | readBody len read => protocolStartChar :: (Hex.text len ++ protocolSeparatorChar :: read)
  | checkSeparator body => protocolStartChar :: checkedText body
  | checkHi body => protocolStartChar :: (checkedText body ++ [protocolSeparatorChar])
  | checkLo body hi =>
    protocolStartChar :: (checkedText body ++ [protocolSeparatorChar, Hex.digit hi])
  | frameEnd body check =>
    protocolStartChar :: (checkedText body ++ protocolSeparatorChar ::
      (Hex.text check ++ List.replicate crs carriageReturn))

def Reads (p : Progress) (stream : List UInt8) : Prop :=
  p = waitStart ∨ ∃ before crs, stream = before ++ p.textWith crs

end Progress

theorem typeOf_text (type : ProtocolType) (known : protocolTypeIsValid type = true) :
    typeOf (protocolTypeToText type) = some type := by
  cases type with
  | cmd | dat | evt | sts | ack | err => rfl
  | invalid => cases known
  | other raw => cases known

theorem typeOf_some {letters : List UInt8} {type : ProtocolType} (h : typeOf letters = some type) :
    protocolTypeIsValid type = true ∧ protocolTypeToText type = letters := by
  refine ⟨(type_known_iff type).mpr (List.mem_of_find?_eq_some h), ?_⟩
  simpa using List.find?_some h

theorem splitBody_message (m : WireMessage) : splitBody m.body = some (m.type, m.payload) := by
  have size := type_text_length m.type
  have found := typeOf_text m.type m.known
  unfold WireMessage.body
  generalize protocolTypeToText m.type = letters at size found
  obtain ⟨a, b, c, rfl⟩ := List.length_eq_three.mp size
  simp [splitBody, found]

theorem splitBody_some {body payload : List UInt8} {type : ProtocolType}
    (h : splitBody body = some (type, payload)) :
    protocolTypeIsValid type = true ∧
      body = protocolTypeToText type ++ protocolSeparatorChar :: payload := by
  unfold splitBody at h
  split at h
  · rename_i a b c separator rest
    split at h
    · rename_i hs
      obtain ⟨t, ht, hp⟩ := Option.map_eq_some_iff.mp h
      obtain ⟨rfl, rfl⟩ := Prod.mk.inj hp
      obtain ⟨known, letters⟩ := typeOf_some ht
      exact ⟨known, by rw [letters, hs]; rfl⟩
    · contradiction
  · contradiction

namespace Progress

theorem deliver_message (m : WireMessage) :
    deliver m.body m.check = .ready m.type m.payload := by
  simp [deliver, WireMessage.check, splitBody_message]

theorem deliver_ready {body payload : List UInt8} {check : Nat} {type : ProtocolType}
    (valid : Valid (frameEnd body check)) (h : deliver body check = .ready type payload) :
    ∃ m : WireMessage, m.type = type ∧ m.payload = payload ∧ m.body = body ∧ m.check = check := by
  unfold deliver at h
  split at h
  · rename_i hc
    split at h
    · rename_i t p hs
      cases h
      obtain ⟨known, hb⟩ := splitBody_some hs
      have size : body.length = payload.length + 4 := by
        rw [hb]; simp [type_text_length]; omega
      have short : payload.length ≤ 48 := by
        have high := valid.2.1
        omega
      have clean : ∀ b ∈ payload, IsTextByte b := fun b hm =>
        valid.2.2.1 b (by rw [hb]; simp [hm])
      refine ⟨⟨type, payload, known, short, clean⟩, rfl, rfl, hb.symm, ?_⟩
      simp only [WireMessage.check, WireMessage.body, ← hb, hc]
    · contradiction
  · contradiction

theorem valid_reject (b : UInt8) : Valid (reject b).1 := by
  unfold reject
  split <;> exact True.intro

theorem valid_next (p : Progress) (b : UInt8) (h : Valid p) : Valid (next p b).1 := by
  cases p with
  | waitStart => simp only [next]; split <;> exact True.intro
  | lenHi =>
    simp only [next]
    split
    · exact True.intro
    · exact valid_reject b
  | lenLo hi =>
    simp only [next]
    split
    · split
      · assumption
      · exact valid_reject b
    · exact valid_reject b
  | lenSeparator len =>
    simp only [next]
    split
    · exact ⟨h.1, h.2, Nat.lt_of_lt_of_le (by decide) h.1, by simp⟩
    · exact valid_reject b
  | readBody len read =>
    simp only [next]
    split
    · rename_i hb
      have clean : ∀ c ∈ read ++ [b], IsTextByte c := by
        intro c hc
        rcases List.mem_append.mp hc with hc | hc
        · exact h.2.2.2 c hc
        · exact List.mem_singleton.mp hc ▸ hb
      split
      · rename_i full
        simp only [Valid, List.length_append, List.length_singleton, full]
        exact ⟨h.1, h.2.1, clean⟩
      · rename_i more
        refine ⟨h.1, h.2.1, ?_, clean⟩
        have room := h.2.2.1
        simp only [List.length_append, List.length_singleton]
        omega
    · exact valid_reject b
  | checkSeparator body =>
    simp only [next]
    split
    · exact h
    · exact valid_reject b
  | checkHi body =>
    simp only [next]
    split
    · exact h
    · exact valid_reject b
  | checkLo body hi =>
    simp only [next]
    split
    · exact ⟨h.1, h.2.1, h.2.2, by omega⟩
    · exact valid_reject b
  | frameEnd body check =>
    simp only [next]
    split
    · exact h
    · split
      · exact True.intro
      · exact valid_reject b

/- Soundness: the text of the state is always a suffix of the stream. -/

theorem reads_reject (stream : List UInt8) (b : UInt8) : Reads (reject b).1 (stream ++ [b]) := by
  unfold reject
  split
  · rename_i hb
    exact .inr ⟨stream, 0, by rw [hb]; rfl⟩
  · exact .inl rfl

theorem reads_extend {p : Progress} {stream before text : List UInt8} {b : UInt8} (crs : Nat)
    (read : stream = before ++ text) (grown : text ++ [b] = p.textWith crs) :
    Reads p (stream ++ [b]) :=
  .inr ⟨before, crs, by rw [read, List.append_assoc, grown]⟩

theorem reads_next (p : Progress) (stream : List UInt8) (b : UInt8) (h : Reads p stream) :
    Reads (next p b).1 (stream ++ [b]) := by
  rcases h with rfl | ⟨before, crs, hs⟩
  · simp only [next]
    split
    · rename_i hb
      exact .inr ⟨stream, 0, by rw [hb]; rfl⟩
    · exact .inl rfl
  · cases p with
    | waitStart =>
      simp only [next]
      split
      · rename_i hb
        exact .inr ⟨stream, 0, by rw [hb]; rfl⟩
      · exact .inl rfl
    | lenHi =>
      simp only [next]
      split
      · rename_i hi hr
        exact reads_extend 0 hs (by simp [textWith, Hex.digit_of_read hr])
      · exact reads_reject stream b
    | lenLo hi =>
      simp only [next]
      split
      · rename_i lo hr
        split
        · exact reads_extend 0 hs (by simp [textWith, Hex.digit_of_read hr])
        · exact reads_reject stream b
      · exact reads_reject stream b
    | lenSeparator len =>
      simp only [next]
      split
      · rename_i hb
        exact reads_extend 0 hs (by simp [textWith, hb])
      · exact reads_reject stream b
    | readBody len read =>
      simp only [next]
      split
      · split
        · rename_i full
          exact reads_extend 0 hs (by simp [textWith, checkedText, full])
        · exact reads_extend 0 hs (by simp [textWith])
      · exact reads_reject stream b
    | checkSeparator body =>
      simp only [next]
      split
      · rename_i hb
        exact reads_extend 0 hs (by simp [textWith, hb])
      · exact reads_reject stream b
    | checkHi body =>
      simp only [next]
      split
      · rename_i hi hr
        exact reads_extend 0 hs (by simp [textWith, Hex.digit_of_read hr])
      · exact reads_reject stream b
    | checkLo body hi =>
      simp only [next]
      split
      · rename_i lo hr
        exact reads_extend 0 hs (by simp [textWith, Hex.digit_of_read hr])
      · exact reads_reject stream b
    | frameEnd body check =>
      simp only [next]
      split
      · rename_i hb
        exact reads_extend (crs + 1) hs (by simp [textWith, hb, List.replicate_succ'])
      · split
        · exact .inl rfl
        · exact reads_reject stream b

theorem read_not_start {b : UInt8} {d : Fin 16} (h : Hex.read b = some d) :
    b ≠ protocolStartChar := by
  rw [← Hex.digit_of_read h]
  exact (Hex.digit_text d).2.2.1

/-- What a step inside a frame can do: reject the byte, accept a byte other than the
start character and stay inside, or end a complete text at the line feed. -/
theorem next_cases (p : Progress) (b : UInt8) (inside : p ≠ waitStart) :
    next p b = reject b ∨
    ((next p b).2 = .inProgress ∧ (next p b).1 ≠ waitStart ∧ b ≠ protocolStartChar) ∨
    (∃ body check, p = frameEnd body check ∧ b = protocolEndChar ∧
      next p b = (waitStart, deliver body check)) := by
  cases p with
  | waitStart => exact absurd rfl inside
  | lenHi | checkHi _ | checkLo _ _ =>
    simp only [next]
    split
    · rename_i hr
      exact .inr (.inl ⟨rfl, by simp, read_not_start hr⟩)
    · exact .inl rfl
  | lenLo _ =>
    simp only [next]
    split
    · rename_i hr
      split
      · exact .inr (.inl ⟨rfl, by simp, read_not_start hr⟩)
      · exact .inl rfl
    · exact .inl rfl
  | lenSeparator _ | checkSeparator _ =>
    simp only [next]
    split
    · rename_i hb
      exact .inr (.inl ⟨rfl, by simp, by rw [hb]; decide⟩)
    · exact .inl rfl
  | readBody _ _ =>
    simp only [next]
    split
    · rename_i hb
      exact .inr (.inl ⟨rfl, by simp only; split <;> simp, hb.2.2⟩)
    · exact .inl rfl
  | frameEnd body check =>
    simp only [next]
    split
    · rename_i hb
      exact .inr (.inl ⟨rfl, by simp, by rw [hb]; decide⟩)
    · split
      · rename_i hb
        exact .inr (.inr ⟨body, check, rfl, hb, rfl⟩)
      · exact .inl rfl

theorem next_ready {p : Progress} {b : UInt8} {type : ProtocolType} {payload : List UInt8}
    (h : (next p b).2 = .ready type payload) :
    ∃ body check, p = frameEnd body check ∧ b = protocolEndChar ∧
      deliver body check = .ready type payload := by
  by_cases inside : p = waitStart
  · rw [inside] at h
    contradiction
  · rcases next_cases p b inside with hn | ⟨hn, _⟩ | ⟨body, check, hp, hb, hn⟩
    · rw [hn] at h
      contradiction
    · rw [hn] at h
      contradiction
    · rw [hn] at h
      exact ⟨body, check, hp, hb, h⟩

theorem ready_frame {p : Progress} {stream : List UInt8} {b : UInt8} {type : ProtocolType}
    {payload : List UInt8} (valid : Valid p) (read : Reads p stream)
    (h : (next p b).2 = .ready type payload) :
    ∃ (m : WireMessage) (crs : Nat) (before : List UInt8), m.type = type ∧ m.payload = payload ∧
      stream ++ [b] = before ++ m.frameWith crs := by
  obtain ⟨body, check, rfl, hb, hd⟩ := next_ready h
  obtain ⟨m, ht, hp, hbody, hcheck⟩ := deliver_ready valid hd
  rcases read with none | ⟨before, crs, hs⟩
  · contradiction
  · refine ⟨m, crs, before, ht, hp, ?_⟩
    rw [hs, hb]
    simp [textWith, WireMessage.frameWith, WireMessage.tailWith, WireMessage.core, hbody, hcheck]

/- Completeness: the text of a valid message is read to its end without an error. -/

theorem trace_length_digits (len : Nat) (low : 4 ≤ len) (high : len ≤ 52) :
    Machine.trace next lenHi (Hex.text len) = (lenSeparator len, [.inProgress, .inProgress]) := by
  have value := Hex.pair_value len (by omega)
  simp only [Hex.text, Machine.trace_cons, Machine.trace_nil, next, Hex.read_digit, ← value,
    if_pos (And.intro low high)]

theorem trace_body (len : Nat) (rest read : List UInt8) (more : rest ≠ [])
    (size : read.length + rest.length = len) (clean : ∀ b ∈ rest, IsTextByte b) :
    Machine.trace next (readBody len read) rest =
      (checkSeparator (read ++ rest), List.replicate rest.length .inProgress) := by
  induction rest generalizing read with
  | nil => exact absurd rfl more
  | cons b rest ih =>
    have hb : IsTextByte b := clean b List.mem_cons_self
    have clean' : ∀ c ∈ rest, IsTextByte c := fun c hc => clean c (List.mem_cons_of_mem b hc)
    cases rest with
    | nil =>
      have full : read.length + 1 = len := size
      simp [next, if_pos hb, full]
    | cons c rest =>
      have open' : ¬ read.length + 1 = len := by simp at size; omega
      have grown : (read ++ [b]).length + (c :: rest).length = len := by simp at size ⊢; omega
      have step : next (readBody len read) b = (readBody len (read ++ [b]), .inProgress) := by
        simp only [next, if_pos hb, if_neg open']
      rw [Machine.trace_cons, step, ih (read ++ [b]) (by simp) grown clean']
      simp [List.replicate_succ]

theorem trace_check_digits (body : List UInt8) (check : Nat) (small : check < 256) :
    Machine.trace next (checkHi body) (Hex.text check) =
      (frameEnd body check, [.inProgress, .inProgress]) := by
  have value := Hex.pair_value check small
  simp only [Hex.text, Machine.trace_cons, Machine.trace_nil, next, Hex.read_digit, ← value]

theorem trace_returns (body : List UInt8) (check crs : Nat) :
    Machine.trace next (frameEnd body check) (List.replicate crs carriageReturn) =
      (frameEnd body check, List.replicate crs .inProgress) := by
  induction crs with
  | zero => rfl
  | succ crs ih => simp [List.replicate_succ, next, ih]

theorem trace_tail (m : WireMessage) (crs : Nat) :
    Machine.trace next lenHi (m.tailWith crs) =
      (waitStart, List.replicate (m.body.length + 6 + crs) .inProgress ++
        [.ready m.type m.payload]) := by
  have bounds := m.body_bounds
  have filled : m.body ≠ [] := by
    intro e
    rw [e] at bounds
    exact absurd bounds.1 (by decide)
  have feed : protocolEndChar ≠ carriageReturn := by decide
  have count : m.body.length + 6 + crs = 2 + (1 + (m.body.length + (1 + (2 + crs)))) := by omega
  simp only [WireMessage.tailWith, WireMessage.core, checkedText, List.append_assoc, List.cons_append,
    Machine.trace_append, Machine.trace_cons, Machine.trace_nil,
    trace_length_digits _ bounds.1 bounds.2, next, if_true,
    trace_body m.body.length m.body [] filled (Nat.zero_add _) m.body_clean, List.nil_append,
    trace_check_digits _ _ m.check_small, trace_returns, if_neg feed, deliver_message, count,
    List.replicate_add]
  rfl

/- Conservation: every start character opens one attempt, which ends once. -/

def attempts (p : Progress) : Nat := if p = waitStart then 0 else 1

def starts (b : UInt8) : Nat := if b = protocolStartChar then 1 else 0

end Progress

def Outcome.finished : Outcome → Nat
  | .inProgress => 0
  | _ => 1

namespace Progress

theorem reject_conserves (b : UInt8) :
    1 + starts b = attempts (reject b).1 + (reject b).2.finished := by
  unfold reject starts
  split <;> rfl

theorem deliver_finished (body : List UInt8) (check : Nat) : (deliver body check).finished = 1 := by
  unfold deliver
  split
  · split <;> rfl
  · rfl

theorem next_conserves (p : Progress) (b : UInt8) :
    attempts p + starts b = attempts (next p b).1 + (next p b).2.finished := by
  by_cases inside : p = waitStart
  · subst inside
    simp only [next, starts]
    split <;> rfl
  · have opened : attempts p = 1 := if_neg inside
    rcases next_cases p b inside with hn | ⟨ho, hp, hb⟩ | ⟨body, check, _, hb, hn⟩
    · rw [hn, opened]
      exact reject_conserves b
    · rw [ho, opened, starts, if_neg hb, attempts, if_neg hp]
      rfl
    · rw [hn, opened, deliver_finished, hb]
      rfl

theorem trace_conserves (p : Progress) (stream : List UInt8) :
    attempts p + stream.count protocolStartChar =
      attempts (Machine.trace next p stream).1 +
        ((Machine.trace next p stream).2.map Outcome.finished).sum := by
  induction stream generalizing p with
  | nil => simp
  | cons b rest ih =>
    have step := next_conserves p b
    have tail := ih (next p b).1
    simp only [starts] at step
    simp only [Machine.trace_cons, List.map_cons, List.sum_cons, List.count_cons, beq_iff_eq]
    omega

end Progress

end CommandBox
