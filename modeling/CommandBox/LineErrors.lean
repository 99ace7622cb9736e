import CommandBox.RoundTrip

/-! One byte of a frame is replaced, lost or inserted on the line. The length digits and
the printable text up to the end of the line pin down where a forged frame would have to
lie; the checksum excludes the only replacement that fits there. -/
namespace CommandBox
open Memory Progress

inductive LineError where
  | replace (i : Nat) (y : UInt8)
  | delete (i : Nat)
  | insert (i : Nat) (y : UInt8)
  deriving DecidableEq

namespace LineError

def apply : LineError → List UInt8 → List UInt8
  | .replace i y, frame => frame.set i y
  | .delete i, frame => frame.eraseIdx i
  | .insert i y, frame => frame.insertIdx i y

/-- The byte that is hit exists, a replacement changes it, and no start character comes in. -/
def Allowed : LineError → List UInt8 → Prop
  | .replace i y, frame => i < frame.length ∧ frame[i]? ≠ some y ∧ y ≠ protocolStartChar
  | .delete i, frame => i < frame.length
  | .insert i y, frame => i ≤ frame.length ∧ y ≠ protocolStartChar

def inserts : LineError → Bool
  | .insert _ _ => true
  | _ => false

end LineError

/- Where the bytes of a tail lie. -/

theorem tail_core (m : WireMessage) (crs : Nat) {j : Nat} (h : j < m.body.length + 6) :
    ∃ b, (m.tailWith crs)[j]? = some b ∧ IsTextByte b := by
  have inside : j < m.core.length := by rw [m.core_length]; exact h
  refine ⟨m.core[j], ?_, m.core_clean _ (List.getElem_mem inside)⟩
  rw [WireMessage.tailWith, List.getElem?_append_left inside, List.getElem?_eq_getElem inside]

theorem tail_end (m : WireMessage) (crs : Nat) :
    ∃ b, (m.tailWith crs)[m.body.length + 6]? = some b ∧ ¬ IsTextByte b := by
  rw [WireMessage.tailWith, List.getElem?_append_right (Nat.le_of_eq m.core_length), m.core_length,
    Nat.sub_self]
  cases crs with
  | zero => exact ⟨_, rfl, by decide⟩
  | succ crs => exact ⟨_, rfl, by decide⟩

theorem tail_opening (m : WireMessage) (crs : Nat) :
    ∃ d₁ d₂ rest, m.tailWith crs = Hex.digit d₁ :: Hex.digit d₂ :: protocolSeparatorChar :: rest ∧
      Hex.text m.body.length = [Hex.digit d₁, Hex.digit d₂] :=
  ⟨_, _, _, rfl, rfl⟩

theorem digit_not_separator (d : Fin 16) : Hex.digit d ≠ protocolSeparatorChar :=
  (Hex.digit_text d).2.2.2

theorem take_two (m : WireMessage) (crs : Nat) :
    (m.tailWith crs).take 2 = Hex.text m.body.length := rfl

theorem take_core (m : WireMessage) (crs : Nat) :
    (m.tailWith crs).take (m.body.length + 6) = m.core := by
  rw [WireMessage.tailWith, ← m.core_length, List.take_left]

theorem take_of_start {α : Type} {xs ys : List α} (h : xs <+: ys) {k : Nat} (size : k ≤ xs.length) :
    ys.take k = xs.take k := by
  obtain ⟨rest, rfl⟩ := h
  exact List.take_append_of_le_length size

theorem get_of_start {α : Type} {xs ys : List α} (h : xs <+: ys) {j : Nat} (inside : j < xs.length) :
    ys[j]? = xs[j]? := by
  obtain ⟨rest, rfl⟩ := h
  exact List.getElem?_append_left inside

section Tails
variable {m m' : WireMessage} {crs i : Nat} {y : UInt8}

theorem tail_long (m : WireMessage) (crs : Nat) : 11 ≤ (m.tailWith crs).length := by
  have low := m.body_bounds.1
  rw [m.tail_length]
  omega

theorem same_length {text : List UInt8} (starts : m'.tailWith crs <+: text)
    (digits : text.take 2 = (m.tailWith 0).take 2) : m'.body.length = m.body.length := by
  have long := tail_long m' crs
  rw [take_of_start starts (by omega), take_two, take_two] at digits
  exact WireMessage.body_length_of_digits digits

theorem erased_tail (starts : m'.tailWith crs <+: (m.tailWith 0).eraseIdx i)
    (inside : i < (m.tailWith 0).length) : False := by
  have long := tail_long m' crs
  by_cases early : i < 2
  · -- the separator moves into the place of the second length digit
    obtain ⟨d₁, d₂, rest, text, _⟩ := tail_opening m 0
    obtain ⟨e₁, e₂, rest', text', _⟩ := tail_opening m' crs
    have second := get_of_start starts (j := 1) (by omega)
    rw [List.getElem?_eraseIdx_of_ge (by omega), text, text'] at second
    exact digit_not_separator e₂ (Option.some.inj second).symm
  · have lengths := same_length starts (List.take_eraseIdx_eq_take_of_le _ _ _ (by omega))
    have fits := starts.length_le
    rw [List.length_eraseIdx_of_lt inside, m.tail_length, m'.tail_length] at fits
    omega

theorem inserted_tail (starts : m'.tailWith crs <+: (m.tailWith 0).insertIdx i y) :
    m'.body = m.body := by
  have long := tail_long m' crs
  by_cases early : i < 2
  · -- the second length digit moves into the place of the separator
    exfalso
    obtain ⟨d₁, d₂, rest, text, _⟩ := tail_opening m 0
    obtain ⟨e₁, e₂, rest', text', _⟩ := tail_opening m' crs
    have third := get_of_start starts (j := 2) (by omega)
    rw [List.getElem?_insertIdx_of_gt early, text, text'] at third
    exact digit_not_separator d₂ (Option.some.inj third)
  · have lengths := same_length starts (List.take_insertIdx_eq_take_of_le _ _ _ _ (by omega))
    by_cases late : m.body.length + 6 ≤ i
    · apply WireMessage.core_unique
      have size : m.body.length + 6 ≤ (m'.tailWith crs).length := by
        rw [m'.tail_length]
        omega
      have cores := take_of_start starts size
      rw [List.take_insertIdx_eq_take_of_le _ _ _ _ late, take_core, ← lengths, take_core] at cores
      exact cores.symm
    · -- the last check digit moves into the place of the end of the line
      exfalso
      obtain ⟨b, hb, text⟩ := tail_core m 0 (j := m.body.length + 5) (by omega)
      obtain ⟨c, hc, ends⟩ := tail_end m' crs
      have place := get_of_start starts (j := m'.body.length + 6) (by rw [m'.tail_length]; omega)
      rw [List.getElem?_insertIdx_of_gt (by omega), hc, lengths] at place
      rw [show m.body.length + 6 - 1 = m.body.length + 5 from rfl, hb] at place
      exact ends (Option.some.inj place ▸ text)

theorem tail_parts (m : WireMessage) : m.tailWith 0 =
    checkedText m.body ++ protocolSeparatorChar :: (Hex.text m.check ++ [protocolEndChar]) := by
  simp [WireMessage.tailWith, WireMessage.core]

theorem replaced_same {m m' : WireMessage} (lengths : m'.body.length = m.body.length)
    (inside : i < (m.tailWith 0).length) (whole : m'.tailWith 0 = (m.tailWith 0).set i y) :
    (m.tailWith 0)[i]? = some y := by
  have sizes : (checkedText m'.body).length = (checkedText m.body).length := by
    rw [checkedText_length, checkedText_length, lengths]
  rw [tail_parts m', tail_parts m] at whole
  by_cases early : i < (checkedText m.body).length
  · -- in the checked text: the check digits are intact, so the checksum is the same
    rw [List.set_append_left _ _ early] at whole
    obtain ⟨texts, rests⟩ := List.append_inj whole (by rw [List.length_set, sizes])
    have digits : Hex.text m'.check = Hex.text m.check := by simpa using rests
    have checks := Hex.text_injective m'.check_small m.check_small digits
    have sums := UInt8.toNat_inj.mp checks
    rw [texts] at sums
    rw [tail_parts m, List.getElem?_append_left early, List.getElem?_eq_getElem early,
      ← Xor.set_detected early sums]
  · -- behind it: the same body has the same check digits
    rw [List.set_append_right _ _ (by omega)] at whole
    obtain ⟨texts, _⟩ := List.append_inj whole sizes
    have bodies : m'.body = m.body := by
      simp only [checkedText, lengths, List.append_cancel_left_eq, List.cons.injEq, true_and] at texts
      exact texts
    have tails : m'.tailWith 0 = m.tailWith 0 := by
      simp only [WireMessage.tailWith, WireMessage.core, WireMessage.check, bodies]
    rw [← List.set_append_right _ _ (by omega), ← tail_parts m, ← tail_parts m', tails] at whole
    rw [whole, List.getElem?_set_self inside]

theorem replaced_tail (starts : m'.tailWith crs <+: (m.tailWith 0).set i y)
    (inside : i < (m.tailWith 0).length) (differs : (m.tailWith 0)[i]? ≠ some y) : False := by
  have long := tail_long m' crs
  have fits := starts.length_le
  rw [List.length_set, m.tail_length, m'.tail_length] at fits
  have lengths : m'.body.length = m.body.length := by
    by_cases early : i < 2
    · -- the text behind the digits is intact, so the end of the line is where it was
      obtain ⟨c, hc, ends⟩ := tail_end m' crs
      have place := get_of_start starts (j := m'.body.length + 6) (by rw [m'.tail_length]; omega)
      rw [List.getElem?_set_ne (by omega), hc] at place
      by_cases short : m'.body.length < m.body.length
      · obtain ⟨b, hb, text⟩ := tail_core m 0 (j := m'.body.length + 6) (by omega)
        rw [hb] at place
        exact absurd (Option.some.inj place ▸ text) ends
      · omega
    · exact same_length starts (List.take_set_of_le (by omega))
  have crs_zero : crs = 0 := by omega
  subst crs_zero
  have whole : m'.tailWith 0 = (m.tailWith 0).set i y := by
    apply starts.eq_of_length
    rw [List.length_set, m.tail_length, m'.tail_length, lengths]
  exact differs (replaced_same lengths inside whole)

end Tails

/-- The start character occurs at most once, and a tail behind it belongs to the message;
only an insertion leaves one. -/
theorem damaged_shape (m : WireMessage) (e : LineError) (allowed : e.Allowed m.frame) :
    protocolStartChar ∉ e.apply m.frame ∨
    ∃ before rest, e.apply m.frame = before ++ protocolStartChar :: rest ∧
      protocolStartChar ∉ before ∧ protocolStartChar ∉ rest ∧
      ∀ m' crs, WireMessage.tailWith m' crs <+: rest → m'.body = m.body ∧ e.inserts = true := by
  have none := m.tail_no_start 0
  have size : m.frame.length = (m.tailWith 0).length + 1 := rfl
  cases e with
  | replace i y =>
    obtain ⟨inside, differs, other⟩ := allowed
    cases i with
    | zero =>
      left
      change protocolStartChar ∉ y :: m.tailWith 0
      simp [none, other.symm]
    | succ i =>
      right
      refine ⟨[], (m.tailWith 0).set i y, rfl, List.not_mem_nil, ?_, ?_⟩
      · intro hm
        rcases List.mem_or_eq_of_mem_set hm with hm | hm
        · exact none hm
        · exact other hm.symm
      · intro m' crs starts
        exact (replaced_tail starts (by omega) differs).elim
  | delete i =>
    have inside : i < m.frame.length := allowed
    cases i with
    | zero => exact .inl none
    | succ i =>
      right
      refine ⟨[], (m.tailWith 0).eraseIdx i, rfl, List.not_mem_nil, ?_, ?_⟩
      · exact fun hm => none (List.mem_of_mem_eraseIdx hm)
      · intro m' crs starts
        exact (erased_tail starts (by omega)).elim
  | insert i y =>
    obtain ⟨inside, other⟩ := allowed
    right
    cases i with
    | zero =>
      refine ⟨[y], m.tailWith 0, rfl, by simp [other.symm], none, ?_⟩
      intro m' crs starts
      have lengths := same_length starts rfl
      have fits := starts.length_le
      have cores := take_of_start starts (k := m'.body.length + 6) (by rw [m'.tail_length]; omega)
      rw [take_core, lengths, take_core] at cores
      exact ⟨WireMessage.core_unique cores.symm, rfl⟩
    | succ i =>
      refine ⟨[], (m.tailWith 0).insertIdx i y, rfl, List.not_mem_nil, ?_, ?_⟩
      · intro hm
        rcases List.eq_or_mem_of_mem_insertIdx hm with hm | hm
        · exact other hm.symm
        · exact none hm
      · intro m' crs starts
        exact ⟨inserted_tail starts, rfl⟩

theorem delivered_frame {stream : List UInt8} {d : ProtocolType × List UInt8}
    (h : d ∈ (Machine.trace next .waitStart stream).2.filterMap Outcome.delivered) :
    ∃ (m : WireMessage) (crs : Nat) (before rest : List UInt8), (m.type, m.payload) = d ∧
      stream = before ++ protocolStartChar :: (m.tailWith crs ++ rest) := by
  obtain ⟨o, ho, hd⟩ := List.mem_filterMap.mp h
  obtain ⟨n, hn, rfl⟩ := List.getElem_of_mem ho
  have inside : n < stream.length := by simpa using hn
  rw [Machine.trace_output next .waitStart stream n inside hn] at hd
  have delivers : (next (Machine.trace next .waitStart (stream.take n)).1 stream[n]).2 =
      .ready d.1 d.2 := by
    generalize (next (Machine.trace next .waitStart (stream.take n)).1 stream[n]).2 = o at hd
    cases o with
    | inProgress | error => cases hd
    | ready type payload =>
      cases hd
      rfl
  obtain ⟨m, crs, ht, hp, before, hs⟩ := (ready_iff_frame _ _ _ _).mp delivers
  refine ⟨m, crs, before, stream.drop (n + 1), by rw [ht, hp], ?_⟩
  rw [List.take_append_getElem inside] at hs
  calc stream = stream.take (n + 1) ++ stream.drop (n + 1) := (List.take_append_drop _ _).symm
    _ = before ++ protocolStartChar :: (m.tailWith crs ++ stream.drop (n + 1)) := by
      rw [← hs]
      simp [WireMessage.frameWith]

theorem delivered_count (outcomes : List Outcome) :
    (outcomes.filterMap Outcome.delivered).length ≤ (outcomes.map Outcome.finished).sum := by
  induction outcomes with
  | nil => exact Nat.le_refl 0
  | cons o rest ih =>
    cases o with
    | inProgress | error =>
      rw [List.filterMap_cons_none rfl, List.map_cons, List.sum_cons]
      omega
    | ready type payload =>
      have kept : Outcome.delivered (.ready type payload) = some (type, payload) := rfl
      have one : Outcome.finished (.ready type payload) = 1 := rfl
      rw [List.filterMap_cons_some kept, List.map_cons, List.sum_cons, List.length_cons, one]
      omega

theorem damaged_delivers (m : WireMessage) (e : LineError) (allowed : e.Allowed m.frame) :
    (∀ d ∈ (Machine.trace next .waitStart (e.apply m.frame)).2.filterMap Outcome.delivered,
      d = (m.type, m.payload) ∧ e.inserts = true) ∧
    ((Machine.trace next .waitStart (e.apply m.frame)).2.filterMap Outcome.delivered).length ≤ 1 := by
  have shape := damaged_shape m e allowed
  constructor
  · intro d hd
    obtain ⟨m', crs, before', rest', rfl, hs⟩ := delivered_frame hd
    rcases shape with none | ⟨before, rest, split, clear, clear', law⟩
    · exact absurd (by rw [hs]; simp) none
    · rw [split] at hs
      obtain ⟨_, _, rests⟩ := (List.append_cons_inj_of_notMem clear clear').mp hs
      obtain ⟨bodies, inserted⟩ := law m' crs ⟨rest', rests.symm⟩
      have parts := splitBody_message m'
      rw [bodies, splitBody_message m] at parts
      exact ⟨(Option.some.inj parts).symm, inserted⟩
  · have few : (e.apply m.frame).count protocolStartChar ≤ 1 := by
      rcases shape with none | ⟨before, rest, split, clear, clear', _⟩
      · rw [List.count_eq_zero.mpr none]
        exact Nat.zero_le 1
      · rw [split, List.count_append, List.count_cons_self, List.count_eq_zero.mpr clear,
          List.count_eq_zero.mpr clear']
    have conserved := trace_conserves .waitStart (e.apply m.frame)
    have fewer := delivered_count (Machine.trace next .waitStart (e.apply m.frame)).2
    simp only [attempts, if_true] at conserved
    omega

/-- A parser that waits for a frame and gets one with one byte replaced, lost or inserted
delivers no other message, that one at most once, and none unless a byte was inserted. -/
theorem line_error_never_forges {parser : Parser} (waiting : parser.state = .waitStart)
    (received message : ProtocolMessage) (valid : ValidMessage message)
    (buffer : Vector UInt8 protocolMaxFrameSize) :
    ∃ r, protocolEncodeFrame message buffer = some r ∧ r.success = true ∧
      ∀ e : LineError, e.Allowed r.written →
        ∃ final replies, feed parser received (e.apply r.written) = some (final, replies) ∧
          (∀ d ∈ deliveries replies, SameMessage d message) ∧ (deliveries replies).length ≤ 1 ∧
          (e.inserts = false → deliveries replies = []) := by
  obtain ⟨m, carried⟩ := valid_wire valid
  obtain ⟨r, he, ok, hw⟩ := encode_written carried buffer
  refine ⟨r, he, ok, ?_⟩
  rw [hw]
  intro e allowed
  obtain ⟨only, once⟩ := damaged_delivers m e allowed
  obtain ⟨final, replies, hfeed, _, answered⟩ :=
    feed_trace (waiting_tracks received waiting) (e.apply m.frame)
  have sizes := (deliveries_answered answered).length_eq
  refine ⟨final, replies, hfeed, ?_, by omega, ?_⟩
  · intro d hd
    obtain ⟨d', hd', given⟩ := mem_deliveries answered hd
    obtain ⟨rfl, _⟩ := only d' hd'
    exact delivered_same given carried
  · intro lost
    apply List.eq_nil_iff_forall_not_mem.mpr
    intro d hd
    obtain ⟨d', hd', _⟩ := mem_deliveries answered hd
    obtain ⟨_, inserted⟩ := only d' hd'
    exact absurd inserted (by simp [lost])

theorem line_error_never_forges_ack :
    ∃ r, protocolEncodeFrame ackOk (Vector.replicate 64 0) = some r ∧ r.success = true ∧
      ∀ e : LineError, e.Allowed r.written →
        ∃ final replies, feed blankParser blankMessage (e.apply r.written) = some (final, replies) ∧
          (∀ d ∈ deliveries replies, SameMessage d ackOk) ∧ (deliveries replies).length ≤ 1 ∧
          (e.inserts = false → deliveries replies = []) :=
  line_error_never_forges rfl blankMessage ackOk (by decide +kernel) (Vector.replicate 64 0)

end CommandBox
