import StreamDockSdk.PropertyInspector.Fate
import StreamDockSdk.Transport.BufferLimits

namespace StreamDockSdk

/-- For the literals of code units. -/
instance (priority := 2000) codeUnits_neZero : @NeZero Nat Zero.ofOfNat0 65536 := ⟨by decide⟩

/-- The code units of a code point. -/
def CodePoint.utf16 (point : CodePoint) : List (Fin 65536) :=
  if point.val < 0x10000 then [Fin.ofNat 65536 point.val]
  else
    [Fin.ofNat 65536 (0xD800 + (point.val - 0x10000) / 1024),
      Fin.ofNat 65536 (0xDC00 + (point.val - 0x10000) % 1024)]

namespace PropertyInspector

/-- The code point of a surrogate pair. -/
def pairPoint (high low : Fin 65536) : CodePoint :=
  Fin.ofNat 0x110000 (0x10000 + (high.val - 0xD800) * 1024 + (low.val - 0xDC00))

def unitPoint (code : Fin 65536) : CodePoint :=
  Fin.castLE (by decide) code

/-- The code points of a string, in which an unpaired surrogate is one of them. -/
def codePointsOf : List (Fin 65536) → List CodePoint
  | [] => []
  | [code] => [unitPoint code]
  | code :: next :: rest =>
      if isHighSurrogate code && isLowSurrogate next then pairPoint code next :: codePointsOf rest
      else unitPoint code :: codePointsOf (next :: rest)

namespace JsString

/-- The text that goes over the wire. -/
def text (string : JsString) : Str :=
  ⟨codePointsOf string.codeUnits⟩

def ofText (text : Str) : JsString :=
  ⟨text.codePoints.flatMap CodePoint.utf16⟩

end JsString

theorem unitPoint_val (code : Fin 65536) : (unitPoint code).val = code.val :=
  rfl

theorem unitPoint_length (code : Fin 65536) :
    (CodePoint.utf8 (unitPoint code)).length = unitSize code := by
  have value := unitPoint_val code
  have bound := code.isLt
  unfold CodePoint.utf8 unitSize
  dsimp only
  by_cases one : code.val < 0x80
  · rw [if_pos one, if_pos (by omega)]
    rfl
  · rw [if_neg one, if_neg (by omega)]
    by_cases two : code.val < 0x800
    · rw [if_pos two, if_pos (by omega)]
      rfl
    · rw [if_neg two, if_neg (by omega), if_pos (by omega)]
      rfl

theorem pairPoint_val {high low : Fin 65536} (isHigh : isHighSurrogate high = true)
    (isLow : isLowSurrogate low = true) :
    (pairPoint high low).val = 0x10000 + (high.val - 0xD800) * 1024 + (low.val - 0xDC00) := by
  simp only [isHighSurrogate, isLowSurrogate, Bool.and_eq_true, decide_eq_true_eq] at isHigh isLow
  exact Nat.mod_eq_of_lt (by omega)

theorem pairPoint_length {high low : Fin 65536} (isHigh : isHighSurrogate high = true)
    (isLow : isLowSurrogate low = true) : (CodePoint.utf8 (pairPoint high low)).length = 4 := by
  have value := pairPoint_val isHigh isLow
  unfold CodePoint.utf8
  dsimp only
  rw [if_neg (by omega), if_neg (by omega), if_neg (by omega)]
  rfl

/-- Each round of the loop counts the bytes of one code point. -/
theorem utf8SizeFrom_counts (limit : Nat) (units : List (Fin 65536)) :
    ∀ {size : Nat}, size ≤ limit →
      CountsUpTo limit (size + (Str.bytes ⟨codePointsOf units⟩).length)
        (utf8SizeFrom limit size units) := by
  induction units using codePointsOf.induct with
  | case1 =>
      intro size _
      exact ⟨fun _ => rfl, fun isOver => isOver⟩
  | case2 code =>
      intro size _
      have last : (Str.bytes ⟨codePointsOf [code]⟩).length = unitSize code := by
        simp [codePointsOf, Str.bytes, unitPoint_length]
      rw [last, utf8SizeFrom]
      exact ⟨fun _ => rfl, fun isOver => isOver⟩
  | case3 code next rest paired ih =>
      intro size fits
      have surrogates := Bool.and_eq_true_iff.mp paired
      have counted : (Str.bytes ⟨codePointsOf (code :: next :: rest)⟩).length =
          4 + (Str.bytes ⟨codePointsOf rest⟩).length := by
        rw [codePointsOf, if_pos paired]
        simp [Str.bytes, pairPoint_length surrogates.1 surrogates.2]
      rw [counted, utf8SizeFrom, if_pos paired]
      split
      · exact ⟨fun _ => by omega, fun _ => by omega⟩
      · rw [← Nat.add_assoc]
        exact ih (by omega)
  | case4 code next rest single ih =>
      intro size fits
      have counted : (Str.bytes ⟨codePointsOf (code :: next :: rest)⟩).length =
          unitSize code + (Str.bytes ⟨codePointsOf (next :: rest)⟩).length := by
        rw [codePointsOf, if_neg single]
        simp [Str.bytes, unitPoint_length]
      rw [counted, utf8SizeFrom, if_neg single]
      split
      · exact ⟨fun _ => by omega, fun _ => by omega⟩
      · rw [← Nat.add_assoc]
        exact ih (by omega)

theorem utf8Size_counts (string : JsString) (limit : Nat) :
    CountsUpTo limit string.text.bytes.length (utf8Size string limit) := by
  have counts := utf8SizeFrom_counts limit string.codeUnits (Nat.zero_le limit)
  rw [Nat.zero_add] at counts
  exact counts

theorem codePointsOf_unit {code : Fin 65536} (scalar : isHighSurrogate code = false)
    (rest : List (Fin 65536)) : codePointsOf (code :: rest) = unitPoint code :: codePointsOf rest := by
  cases rest with
  | nil => rfl
  | cons next rest =>
      rw [codePointsOf, if_neg (by simp [scalar])]

theorem codePointsOf_utf16 {point : CodePoint} (scalar : CodePoint.isSurrogate point = false)
    (rest : List (Fin 65536)) :
    codePointsOf (CodePoint.utf16 point ++ rest) = point :: codePointsOf rest := by
  have bound := point.isLt
  simp only [CodePoint.isSurrogate, Bool.and_eq_false_iff, decide_eq_false_iff_not] at scalar
  unfold CodePoint.utf16
  split
  · next small =>
    have value : (Fin.ofNat 65536 point.val).val = point.val := Nat.mod_eq_of_lt small
    have unpaired : isHighSurrogate (Fin.ofNat 65536 point.val) = false := by
      simp only [isHighSurrogate, value, Bool.and_eq_false_iff, decide_eq_false_iff_not]
      omega
    have same : unitPoint (Fin.ofNat 65536 point.val) = point := by
      ext
      rw [unitPoint_val, value]
    rw [List.singleton_append, codePointsOf_unit unpaired, same]
  · next large =>
    have highValue : (Fin.ofNat 65536 (0xD800 + (point.val - 0x10000) / 1024)).val =
        0xD800 + (point.val - 0x10000) / 1024 := Nat.mod_eq_of_lt (by omega)
    have lowValue : (Fin.ofNat 65536 (0xDC00 + (point.val - 0x10000) % 1024)).val =
        0xDC00 + (point.val - 0x10000) % 1024 := Nat.mod_eq_of_lt (by omega)
    have isHigh : isHighSurrogate (Fin.ofNat 65536 (0xD800 + (point.val - 0x10000) / 1024)) =
        true := by
      simp only [isHighSurrogate, highValue, Bool.and_eq_true, decide_eq_true_eq]
      omega
    have isLow : isLowSurrogate (Fin.ofNat 65536 (0xDC00 + (point.val - 0x10000) % 1024)) =
        true := by
      simp only [isLowSurrogate, lowValue, Bool.and_eq_true, decide_eq_true_eq]
      omega
    have same : pairPoint (Fin.ofNat 65536 (0xD800 + (point.val - 0x10000) / 1024))
        (Fin.ofNat 65536 (0xDC00 + (point.val - 0x10000) % 1024)) = point := by
      ext
      rw [pairPoint_val isHigh isLow, highValue, lowValue]
      omega
    rw [List.cons_append, List.singleton_append, codePointsOf, if_pos (by rw [isHigh, isLow]; rfl),
      same]

/-- A text without surrogates is the same on both sides. -/
theorem text_ofText {text : Str} (wellFormed : text.hasSurrogate = false) :
    (JsString.ofText text).text = text := by
  obtain ⟨points⟩ := text
  simp only [JsString.text, JsString.ofText, Str.mk.injEq]
  simp only [Str.hasSurrogate] at wellFormed
  induction points with
  | nil => rfl
  | cons point rest ih =>
      rw [List.any_cons, Bool.or_eq_false_iff] at wellFormed
      rw [List.flatMap_cons, codePointsOf_utf16 wellFormed.1, ih wellFormed.2]

theorem pendingBytes_text {Value : Type} {js : JavaScript Value} {world : InspectorWorld Value}
    (reachable : (inspectorSystem js).Reachable world) :
    world.client.pendingBytes = (world.client.pendingMessages.map fun message =>
      message.data.text.bytes.length).sum := by
  have sound := InspectorWorld.reachable_queue reachable
  refine sound.bytes.trans (congrArg List.sum (List.map_congr_left fun message member => ?_))
  have fits := (sound.parses message (List.mem_append_left _ member)).fits
  exact (utf8Size_counts message.data maxMessageBytes).eq fits

end PropertyInspector

open Automaton Transport

/-- The two counts of a text and of its UTF-16 form. -/
structure CountsAgree (text : Str) (limit : Nat) : Prop where
  encoded : text.encode .surrogatepass = some text.bytes
  python : CountsUpTo limit text.bytes.length (utf8Size text limit)
  wellFormed : text.hasSurrogate = false → text.encode .strict = some text.bytes ∧
    (PropertyInspector.JsString.ofText text).text = text ∧
    (utf8Size text limit ≤ limit ↔
      PropertyInspector.utf8Size (.ofText text) limit ≤ limit)

theorem countsAgree (text : Str) (limit : Nat) : CountsAgree text limit where
  encoded := text.encode_surrogatepass
  python := utf8Size_counts text limit
  wellFormed scalar := by
    have both := PropertyInspector.text_ofText scalar
    have javaScript := PropertyInspector.utf8Size_counts (.ofText text) limit
    rw [both] at javaScript
    refine ⟨?_, both, (utf8Size_counts text limit).le_iff.trans javaScript.le_iff.symm⟩
    have succeeds := text.encode_strict_isSome
    rw [scalar] at succeeds
    obtain ⟨encoded, strict⟩ := Option.isSome_iff_exists.mp succeeds
    rw [strict, text.encode_strict strict]

/-- Both counts are exact up to every limit, so that both sides accept the same texts, and the
queues of both sides record the exact sizes of what they hold. -/
theorem byte_counts_agree :
    (∀ text limit, CountsAgree text limit) ∧
    (∀ (string : PropertyInspector.JsString) limit,
      CountsUpTo limit string.text.bytes.length (PropertyInspector.utf8Size string limit)) ∧
    (∀ (Item : Type) [DecidableEq Item] (config : TransportQueueConfig Item)
      (equals : Item → Item → Bool) (text : Item → Option Str) (retained : Item → Nat → Nat)
      (world : QueueWorld Item), 0 < config.queueLimit →
      config.itemSize = frameSize text retained → (queueSystem config equals).Reachable world →
      ∀ entry ∈ world.queue.queue, ∀ payload, text entry.1 = some payload →
        entry.2 = payload.bytes.length) ∧
    ∀ (Value : Type) (js : PropertyInspector.JavaScript Value)
      (world : PropertyInspector.InspectorWorld Value),
      (PropertyInspector.inspectorSystem js).Reachable world →
      world.client.pendingBytes = (world.client.pendingMessages.map fun message =>
        message.data.text.bytes.length).sum :=
  ⟨countsAgree, PropertyInspector.utf8Size_counts,
    fun _ _ _ _ _ _ _ positive sizes reachable _ queued _ holds =>
      QueueWorld.reachable_entry positive sizes reachable queued holds,
    fun _ _ _ reachable => PropertyInspector.pendingBytes_text reachable⟩

/-- A queue of texts. -/
def textQueue : TransportQueueConfig Str where
  queueLimit := 2
  byteLimit := 10
  maxMessageBytes := 10
  itemSize := frameSize some fun _ _ => 0

def sampleText : Str := ⟨Str.ofString "aé😀"⟩

def textWorld : QueueWorld Str :=
  ((queueSystem textQueue fun _ _ => false).exec {}
    [.begins (.submit sampleText), .proceeds 0 false false]).get (by decide +kernel)

theorem textWorld_reachable : (queueSystem textQueue fun _ _ => false).Reachable textWorld :=
  .exec (.initial rfl) (Option.some_get _).symm

/-- Seven bytes, on both sides and in the queue; four are above a limit of three. -/
theorem byte_counts_agree_run :
    (PropertyInspector.JsString.ofText sampleText).codeUnits = [0x61, 0xe9, 0xd83d, 0xde00] ∧
      PropertyInspector.utf8Size (.ofText sampleText) 7 = 7 ∧
      3 < PropertyInspector.utf8Size (.ofText sampleText) 3 ∧
      textWorld.queue.queue.map Prod.snd = [7] ∧
      CountsAgree sampleText 7 ∧
      ∀ entry ∈ textWorld.queue.queue, entry.2 = entry.1.bytes.length := by
  have agree := byte_counts_agree
  exact ⟨by decide, by decide, by decide, by decide +kernel, agree.1 sampleText 7,
    fun entry queued => agree.2.2.1 Str textQueue _ some (fun _ _ => 0) textWorld (by decide) rfl
      textWorld_reachable entry queued entry.1 rfl⟩

end StreamDockSdk
