import CommandBox.BackToBack
import CommandBox.Bridge
import CommandBox.BridgeLink
import CommandBox.Messages
import CommandBox.Lib.Lines

/-! The main loop of bridge_sim.py over the bytes of its serial port. The bytes come in parts
of any size, so the loop keeps an unfinished line in its buffer. What it prints can be printed;
the lines about what it writes are left out. -/
namespace CommandBox
open Machine PyText

/- A decoded line is a list of bytes; a byte outside ASCII stands for the replacement
character that `decode` puts in its place. -/

def ordDecoded (c : UInt8) : Nat := if c < 0x80 then c.toNat else 0xFFFD

def decodedChecksum (text : List UInt8) : Nat :=
  text.foldl (fun value c => value ^^^ ordDecoded c) 0

/-- `parse` on a decoded line. -/
def bridgeParseDecoded (line : List UInt8) : Option (List UInt8 × List UInt8) :=
  if line.head? ≠ some protocolStartChar ∨ line.length < 10 then none
  else do
    let (llText, bodyAndCc) ← unpack (split line.tail protocolSeparatorChar)
    let (body, ccText) ← unpack (rsplit bodyAndCc protocolSeparatorChar)
    if llText.length ≠ 2 ∨ ccText.length ≠ 2 then none
    else if (← int16 llText) ≠ body.length then none
    else if (← int16 ccText) ≠ decodedChecksum (llText ++ protocolSeparatorChar :: body) then none
    else
      let (msgType, payload) ← unpack (split body protocolSeparatorChar)
      if validTypes.contains msgType then some (msgType, payload) else none

/-- The line that is printed for a line received. -/
inductive BridgeReport where
  | invalid (line : List UInt8)
  | received (msgType payload : List UInt8)
  deriving DecidableEq

/-- What is printed and what is written to the port. -/
structure BridgeOutput where
  reports : List BridgeReport
  written : List UInt8
  deriving DecidableEq

namespace BridgeOutput

def silent : BridgeOutput := ⟨[], []⟩

def append (a b : BridgeOutput) : BridgeOutput := ⟨a.reports ++ b.reports, a.written ++ b.written⟩

def join (outputs : List BridgeOutput) : BridgeOutput :=
  ⟨outputs.flatMap reports, outputs.flatMap written⟩

end BridgeOutput

/-- The body of the inner loop, for the bytes before a line feed. -/
def bridgeHandle (noAck : Bool) (raw : List UInt8) : Option BridgeOutput :=
  let line := bridgeLine raw
  if line = [] then some .silent
  else match bridgeParseDecoded line with
  | none => some ⟨[.invalid line], []⟩
  | some (msgType, payload) =>
    if msgType = ascii "EVT" ∧ ¬ noAck then do
      let frame ← bridgeEncode (ascii "ACK") (ascii "ok")
      some ⟨[.received msgType payload], frame⟩
    else some ⟨[.received msgType payload], []⟩

/-- The inner loop. Every pass shortens the buffer, so its length is enough fuel. -/
def bridgeDrain (noAck : Bool) : Nat → List UInt8 → Option (List UInt8 × BridgeOutput)
  | 0, buffer => some (buffer, .silent)
  | fuel + 1, buffer =>
    if protocolEndChar ∈ buffer then do
      let (raw, buffer) ← unpack (split buffer protocolEndChar)
      let output ← bridgeHandle noAck raw
      let (buffer, later) ← bridgeDrain noAck fuel buffer
      some (buffer, output.append later)
    else some (buffer, .silent)

/-- A pass of the outer loop, with the bytes that `ser.read` returned. -/
def bridgeRead (noAck : Bool) (buffer chunk : List UInt8) : Option (List UInt8 × BridgeOutput) :=
  bridgeDrain noAck (buffer ++ chunk).length (buffer ++ chunk)

/- What the loop computes, without the parts. -/

theorem decodedChecksum_ascii {text : List UInt8} (plain : ∀ c ∈ text, c < 0x80) :
    decodedChecksum text = bridgeChecksum text := by
  have along : ∀ value : Nat, text.foldl (fun value c => value ^^^ ordDecoded c) value =
      text.foldl (fun value c => value ^^^ c.toNat) value := by
    induction text with
    | nil => exact fun _ => rfl
    | cons c text ih =>
      intro value
      have this : ordDecoded c = c.toNat := if_pos (plain c List.mem_cons_self)
      rw [List.foldl_cons, List.foldl_cons, this, ih fun c hc => plain c (List.mem_cons_of_mem _ hc)]
  exact along 0

theorem parseDecoded_ascii {line : List UInt8} (plain : ∀ c ∈ line, c < 0x80) :
    bridgeParseDecoded line = bridgeParse line := by
  unfold bridgeParseDecoded bridgeParse
  split
  · rfl
  · cases cut : unpack (split line.tail protocolSeparatorChar) with
    | none => rfl
    | some front =>
      obtain ⟨ll, rest⟩ := front
      cases cut' : unpack (rsplit rest protocolSeparatorChar) with
      | none => simp only [Option.bind_eq_bind, Option.bind_some, cut', Option.bind_none]
      | some back =>
        obtain ⟨body, cc⟩ := back
        have same : decodedChecksum (ll ++ protocolSeparatorChar :: body) =
            bridgeChecksum (ll ++ protocolSeparatorChar :: body) := by
          apply decodedChecksum_ascii
          intro c hc
          apply plain c (List.mem_of_mem_tail _)
          rw [(split_unpacked cut).1, (rsplit_unpacked cut').1]
          simp at hc ⊢
          rcases hc with hc | hc | hc
          · exact .inl hc
          · exact .inr (.inl hc)
          · exact .inr (.inr (.inl hc))
        simp only [Option.bind_eq_bind, Option.bind_some, cut', same, List.contains_iff_mem, ite_not]

def ackFrame : List UInt8 := frameText .ack (ascii "ok")

theorem ackWire_frame : ackWire.frame = ackFrame := frame_spelled ackWire

/-- What one line causes. -/
def lineOutput (noAck : Bool) (raw : List UInt8) : BridgeOutput :=
  if bridgeLine raw = [] then .silent
  else match bridgeParseDecoded (bridgeLine raw) with
  | none => ⟨[.invalid (bridgeLine raw)], []⟩
  | some (msgType, payload) =>
    ⟨[.received msgType payload], if msgType = ascii "EVT" ∧ ¬ noAck then ackFrame else []⟩

theorem handle_line (noAck : Bool) (raw : List UInt8) :
    bridgeHandle noAck raw = some (lineOutput noAck raw) := by
  have encoded : bridgeEncode (ascii "ACK") (ascii "ok") = some ackFrame := by
    rw [← ackWire_frame]
    exact bridgeEncode_frame ackWire
  unfold bridgeHandle lineOutput
  dsimp only
  split
  · rfl
  · split
    · rfl
    · split
      · rw [encoded]
        rfl
      · rfl

namespace BridgeOutput

theorem join_cons (output : BridgeOutput) (rest : List BridgeOutput) :
    join (output :: rest) = output.append (join rest) := by
  simp [join, append]

theorem append_assoc (a b c : BridgeOutput) : (a.append b).append c = a.append (b.append c) := by
  simp [append]

theorem join_append (xs ys : List BridgeOutput) : join (xs ++ ys) = (join xs).append (join ys) := by
  simp [join, append]

end BridgeOutput

/-- The inner loop ends with no line feed left, and has handled each line before it. -/
theorem drain_cut (noAck : Bool) {fuel : Nat} {buffer : List UInt8} (enough : buffer.length ≤ fuel) :
    bridgeDrain noAck fuel buffer =
      some ((Lines.cut protocolEndChar buffer).2,
        .join ((Lines.cut protocolEndChar buffer).1.map (lineOutput noAck))) := by
  induction fuel generalizing buffer with
  | zero =>
    rw [List.eq_nil_of_length_eq_zero (Nat.le_zero.mp enough)]
    rfl
  | succ fuel ih =>
    unfold bridgeDrain
    by_cases line : protocolEndChar ∈ buffer
    · obtain ⟨raw, rest, rfl, clean⟩ := List.eq_append_cons_of_mem line
      have shorter : rest.length ≤ fuel := by
        simp at enough
        omega
      have parts : unpack (split (raw ++ protocolEndChar :: rest) protocolEndChar) =
          some (raw, rest) := by
        rw [split_first clean]
        rfl
      rw [if_pos line, Lines.cut_line clean, List.map_cons, BridgeOutput.join_cons]
      apply Memory.then_some parts
      apply Memory.then_some (handle_line noAck raw)
      exact Memory.then_some (ih shorter) rfl
    · rw [if_neg line, Lines.cut_clean line]
      rfl

/-- What the bridge has done after a stream. -/
def streamOutput (noAck : Bool) (stream : List UInt8) : BridgeOutput :=
  .join ((Lines.cut protocolEndChar stream).1.map (lineOutput noAck))

theorem read_cut (noAck : Bool) (buffer chunk : List UInt8) :
    bridgeRead noAck buffer chunk =
      some ((Lines.cut protocolEndChar (buffer ++ chunk)).2, streamOutput noAck (buffer ++ chunk)) :=
  drain_cut noAck (Nat.le_refl _)

theorem streamOutput_append (noAck : Bool) (xs ys : List UInt8) :
    streamOutput noAck (xs ++ ys) = (streamOutput noAck xs).append
      (streamOutput noAck ((Lines.cut protocolEndChar xs).2 ++ ys)) := by
  rw [streamOutput, Lines.cut_append, List.map_append, BridgeOutput.join_append]
  rfl

/-- The buffer holds the unfinished line, so each part goes on where the one before ended. -/
theorem reads_cut (noAck : Bool) (before : List UInt8) (chunks : List (List UInt8)) :
    ∃ outputs, run (bridgeRead noAck) (Lines.cut protocolEndChar before).2 chunks =
        some ((Lines.cut protocolEndChar (before ++ chunks.flatten)).2, outputs) ∧
      (streamOutput noAck before).append (.join outputs) =
        streamOutput noAck (before ++ chunks.flatten) := by
  induction chunks generalizing before with
  | nil =>
    refine ⟨[], by simp [run], ?_⟩
    simp [BridgeOutput.append, BridgeOutput.join]
  | cons chunk chunks ih =>
    obtain ⟨outputs, ran, said⟩ := ih (before ++ chunk)
    have whole := Lines.cut_append protocolEndChar before chunk
    have here := read_cut noAck (Lines.cut protocolEndChar before).2 chunk
    have rest : (Lines.cut protocolEndChar ((Lines.cut protocolEndChar before).2 ++ chunk)).2 =
        (Lines.cut protocolEndChar (before ++ chunk)).2 := by rw [whole]
    rw [rest] at here
    refine ⟨streamOutput noAck ((Lines.cut protocolEndChar before).2 ++ chunk) :: outputs, ?_, ?_⟩
    · rw [run_cons _ here, ran, List.flatten_cons, ← List.append_assoc]
      rfl
    · rw [List.flatten_cons, ← List.append_assoc, ← said, streamOutput_append noAck before chunk,
        BridgeOutput.join_cons, BridgeOutput.append_assoc]

/- The answers. -/

def BridgeReport.isEvt : BridgeReport → Bool
  | .received msgType _ => msgType = ascii "EVT"
  | .invalid _ => false

def answers (noAck : Bool) (reports : List BridgeReport) : Nat :=
  if noAck then 0 else reports.countP BridgeReport.isEvt

theorem answers_append (noAck : Bool) (xs ys : List BridgeReport) :
    answers noAck (xs ++ ys) = answers noAck xs + answers noAck ys := by
  cases noAck <;> simp [answers]

theorem line_answers (noAck : Bool) (raw : List UInt8) :
    (lineOutput noAck raw).written =
      (List.replicate (answers noAck (lineOutput noAck raw).reports) ackFrame).flatten := by
  unfold lineOutput
  split
  · cases noAck <;> rfl
  · split
    · cases noAck <;> rfl
    · rename_i msgType payload _
      cases noAck with
      | true => simp [answers]
      | false =>
        by_cases evt : msgType = ascii "EVT"
        · simp [answers, BridgeReport.isEvt, evt]
        · simp [answers, BridgeReport.isEvt, evt]

theorem join_answers (noAck : Bool) (raws : List (List UInt8)) :
    (BridgeOutput.join (raws.map (lineOutput noAck))).written =
      (List.replicate (answers noAck (BridgeOutput.join (raws.map (lineOutput noAck))).reports)
        ackFrame).flatten := by
  induction raws with
  | nil => cases noAck <;> rfl
  | cons raw raws ih =>
    rw [List.map_cons, BridgeOutput.join_cons]
    simp only [BridgeOutput.append, answers_append, List.replicate_add, List.flatten_append, ← ih,
      line_answers noAck raw]

/-- However the bytes come in, the bridge does what it does for all of them at once, and all it
writes is one whole `ACK:ok` for each `EVT` it has read. -/
theorem bridge_any_chunks (noAck : Bool) (chunks : List (List UInt8)) :
    ∃ buffer outputs output, run (bridgeRead noAck) [] chunks = some (buffer, outputs) ∧
      bridgeRead noAck [] chunks.flatten = some (buffer, output) ∧ .join outputs = output ∧
      protocolEndChar ∉ buffer ∧
      output.written = (List.replicate (answers noAck output.reports) ackFrame).flatten := by
  obtain ⟨outputs, ran, said⟩ := reads_cut noAck [] chunks
  exact ⟨_, outputs, _, ran, read_cut noAck [] _, said, Lines.cut_rest _ _, join_answers noAck _⟩

/- What the bridge makes of frames. -/

theorem line_plain (m : WireMessage) : ∀ c ∈ m.line, c < 0x80 := by
  intro c hc
  rcases List.mem_cons.mp hc with rfl | hc
  · decide
  · exact UInt8.lt_of_le_of_lt (m.core_clean c hc).2.1 (by decide)

theorem line_unbroken (m : WireMessage) : protocolEndChar ∉ m.line := by
  intro hm
  rcases List.mem_cons.mp hm with h | hm
  · exact absurd h (by decide)
  · exact absurd (m.core_clean _ hm).1 (by decide)

/-- What a message causes when it is read as a line of its own. -/
def messageOutput (noAck : Bool) (m : WireMessage) : BridgeOutput where
  reports := [.received (protocolTypeToText m.type) m.payload]
  written := (bridgeReply noAck ⟨m.type, m.payload⟩).flatMap fun e => frameText e.type e.payload

theorem evt_text {type : ProtocolType} (known : protocolTypeIsValid type = true) :
    protocolTypeToText type = ascii "EVT" ↔ type = .evt := by
  cases type with
  | cmd | dat | evt | sts | ack | err => simp [protocolTypeToText] <;> decide
  | invalid | other => contradiction

theorem kept_message (noAck : Bool) {raw : List UInt8} {m : WireMessage}
    (kept : bridgeLine raw = m.line) : lineOutput noAck raw = messageOutput noAck m := by
  have parsed : bridgeParseDecoded m.line = some (protocolTypeToText m.type, m.payload) :=
    (parseDecoded_ascii (line_plain m)).trans (bridgeParse_line m)
  have some' : m.line ≠ [] := List.cons_ne_nil _ _
  unfold lineOutput messageOutput bridgeReply
  rw [kept, if_neg some', parsed]
  simp only [evt_text m.known]
  split
  · rw [List.flatMap_singleton]
    rfl
  · rfl

theorem line_message (noAck : Bool) (m : WireMessage) :
    lineOutput noAck m.line = messageOutput noAck m :=
  kept_message noAck (bridgeLine_kept m)

theorem frames_joined (ms : List WireMessage) :
    ms.flatMap WireMessage.frame = Lines.joined protocolEndChar (ms.map WireMessage.line) := by
  simp only [Lines.joined, List.flatMap_map, ← frame_line]

theorem frames_cut (ms : List WireMessage) (rest : List UInt8) :
    Lines.cut protocolEndChar (ms.flatMap WireMessage.frame ++ rest) =
      (ms.map WireMessage.line ++ (Lines.cut protocolEndChar rest).1,
        (Lines.cut protocolEndChar rest).2) := by
  rw [frames_joined]
  apply Lines.joined_cut
  intro line hl
  obtain ⟨m, _, rfl⟩ := List.mem_map.mp hl
  exact line_unbroken m

theorem strip_blank {blank : List UInt8} (space : ∀ c ∈ blank, isSpace c = true) (text : List UInt8) :
    strip (blank ++ text) = strip text := by
  rw [strip, strip, trim, trim, List.dropWhile_append_of_pos space]

theorem strip_ink {text : List UInt8} {c : UInt8} (inside : c ∈ text) (ink : isSpace c = false) :
    strip text ≠ [] := by
  intro empty
  have tail : ∀ b ∈ (text.dropWhile isSpace).reverse, isSpace b = true := by
    rw [← List.dropWhile_eq_nil_iff]
    exact List.reverse_eq_nil_iff.mp empty
  obtain ⟨front, back, rfl, _⟩ := List.eq_append_cons_of_mem inside
  have kept : c ∈ (front ++ c :: back).dropWhile isSpace := by
    rw [List.dropWhile_append]
    split
    · rw [List.dropWhile_cons_of_neg (by simp [ink])]
      exact List.mem_cons_self
    · simp
  rw [tail c (List.mem_reverse.mpr kept)] at ink
  contradiction

theorem inked_once (noAck : Bool) {raw : List UInt8} (inside : protocolStartChar ∈ raw) :
    (lineOutput noAck raw).reports.length = 1 := by
  have some' : bridgeLine raw ≠ [] := strip_ink inside (by decide)
  unfold lineOutput
  rw [if_neg some']
  split <;> rfl

/-- After any noise the bridge loses at most the line that the noise runs into; it reads all
later frames as what they are, and this one too if the noise ends in white space only. -/
theorem bridge_reads_frames (noAck : Bool) (noise : List UInt8) (m : WireMessage)
    (ms : List WireMessage) (chunks : List (List UInt8))
    (stream : chunks.flatten = noise ++ (m :: ms).flatMap WireMessage.frame) :
    ∃ rest heard first outputs, bridgeRead noAck [] noise = some (rest, heard) ∧
      run (bridgeRead noAck) [] chunks = some ([], outputs) ∧
      .join outputs = (heard.append first).append (.join (ms.map (messageOutput noAck))) ∧
      first.reports.length = 1 ∧
      ((∀ c ∈ rest, isSpace c = true) → first = messageOutput noAck m) := by
  obtain ⟨outputs, ran, said⟩ := reads_cut noAck [] chunks
  have noiseRead := read_cut noAck [] noise
  generalize cutNoise : Lines.cut protocolEndChar noise = parts at noiseRead
  obtain ⟨lines, rest⟩ := parts
  have unfinished : protocolEndChar ∉ rest := by
    have clean := Lines.cut_rest protocolEndChar noise
    rwa [cutNoise] at clean
  have frames : rest ++ (m :: ms).flatMap WireMessage.frame =
      (rest ++ m.line) ++ protocolEndChar :: (ms.flatMap WireMessage.frame ++ []) := by
    simp [frame_line]
  have whole : Lines.cut protocolEndChar chunks.flatten =
      (lines ++ (rest ++ m.line) :: ms.map WireMessage.line, []) := by
    have clean : protocolEndChar ∉ rest ++ m.line := by
      simp [unfinished, line_unbroken m]
    rw [stream, Lines.cut_append, cutNoise]
    dsimp only
    rw [frames, Lines.cut_line clean, frames_cut]
    simp [Lines.cut]
  rw [List.nil_append, whole] at ran
  refine ⟨rest, streamOutput noAck noise, lineOutput noAck (rest ++ m.line), outputs, ?_, ran, ?_, ?_,
    ?_⟩
  · rw [noiseRead, List.nil_append, cutNoise]
  · have each : ms.map (messageOutput noAck) = (ms.map WireMessage.line).map (lineOutput noAck) := by
      rw [List.map_map]
      apply List.map_congr_left
      intro m' _
      exact (line_message noAck m').symm
    have heard : .join outputs = streamOutput noAck chunks.flatten := said
    rw [each, heard, streamOutput, streamOutput, whole, cutNoise, List.map_append, List.map_cons,
      BridgeOutput.join_append, BridgeOutput.join_cons, BridgeOutput.append_assoc]
  · apply inked_once
    simp [WireMessage.line]
  · intro space
    apply kept_message
    rw [bridgeLine, strip_blank space]
    exact bridgeLine_kept m

/-- A byte outside ASCII and a line feed, then a blank in front of the frame, one byte a read. -/
def noisyAck : List UInt8 := [0xFF, protocolEndChar, 0x20] ++ [ackWire].flatMap WireMessage.frame

theorem bridge_reads_frames_blank :
    ∃ rest heard first outputs, bridgeRead false [] [0xFF, protocolEndChar, 0x20] = some (rest, heard) ∧
      run (bridgeRead false) [] (noisyAck.map fun b => [b]) = some ([], outputs) ∧
      .join outputs = (heard.append first).append (.join ([].map (messageOutput false))) ∧
      first.reports.length = 1 ∧
      ((∀ c ∈ rest, isSpace c = true) → first = messageOutput false ackWire) :=
  bridge_reads_frames false [0xFF, protocolEndChar, 0x20] ackWire [] (noisyAck.map fun b => [b])
    (by decide +kernel)

end CommandBox
