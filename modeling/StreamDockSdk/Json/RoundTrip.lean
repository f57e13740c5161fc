import StreamDockSdk.Json.Tokens

namespace StreamDockSdk

/-- A value without duplicate keys, whose containers are nested no deeper than that. -/
inductive WellFormed : Nat → JsonValue → Prop
  | null {depth : Nat} : WellFormed depth .null
  | bool {depth : Nat} (value : Bool) : WellFormed depth (.bool value)
  | int {depth : Nat} (value : Int) : WellFormed depth (.int value)
  | float {depth : Nat} (bits : BitVec 64) : WellFormed depth (.float bits)
  | str {depth : Nat} (value : Str) : WellFormed depth (.str value)
  | list {depth : Nat} {items : List JsonValue} :
      (∀ item ∈ items, WellFormed depth item) → WellFormed (depth + 1) (.list items)
  | dict {depth : Nat} {entries : JsonObject} : (entries.map Prod.fst).Nodup →
      (∀ entry ∈ entries, WellFormed depth entry.2) → WellFormed (depth + 1) (.dict entries)

/-- The scanner reads the text as the value, whatever follows that no number goes on with. -/
structure Reads (scan : List CodePoint → Scanned JsonValue) (written : List CodePoint)
    (value : JsonValue) : Prop where
  scans : ∀ text, Stops text → scan (written ++ text) = .ok (value, text)
  /-- The text begins with neither a blank nor a closing bracket. -/
  begins : ∃ point rest, written = point :: rest ∧ isJsonSpace point = false ∧ point.val ≠ 0x5D

theorem skipSpace_cons {point : CodePoint} (text : List CodePoint) (other : isJsonSpace point = false) :
    skipSpace (point :: text) = point :: text := by
  simp [skipSpace, other]

theorem skipSpace_blank (text : List CodePoint) : skipSpace (0x20 :: text) = skipSpace text := by
  simp [skipSpace, isJsonSpace]

theorem stops_cons {point : CodePoint} (text : List CodePoint)
    (other : isDecimal point = false ∧ point.val ≠ 0x2E ∧ point.val ≠ 0x65 ∧ point.val ≠ 0x45) :
    Stops (point :: text) := by
  intro first found
  rw [List.head?_cons, Option.mem_def, Option.some.injEq] at found
  exact found ▸ other

theorem stops_nil : Stops [] := by
  intro point found
  contradiction

section

variable {scan : List CodePoint → Scanned JsonValue}

theorem Reads.skip {written : List CodePoint} {value : JsonValue} (reads : Reads scan written value)
    (text : List CodePoint) : skipSpace (written ++ text) = written ++ text := by
  obtain ⟨point, rest, rfl, other, _⟩ := reads.begins
  exact skipSpace_cons _ other

theorem comma_append (text : List CodePoint) : Str.ofString ", " ++ text = 0x2C :: 0x20 :: text :=
  rfl

theorem intercalate_begins {parts : List (List CodePoint)} {items : List JsonValue}
    (read : List.Forall₂ (Reads scan) parts items) (nonempty : parts ≠ []) (text : List CodePoint) :
    ∃ point rest, (Str.ofString ", ").intercalate parts ++ text = point :: rest ∧
      isJsonSpace point = false ∧ point.val ≠ 0x5D := by
  cases read with
  | nil => contradiction
  | @cons part item parts items reads others =>
      obtain ⟨point, rest, rfl, blank, closing⟩ := reads.begins
      cases parts with
      | nil => exact ⟨point, _, by rw [List.intercalate_singleton]; rfl, blank, closing⟩
      | cons next parts => exact ⟨point, _, by rw [List.intercalate_cons_cons]; rfl, blank, closing⟩

theorem intercalate_skip {parts : List (List CodePoint)} {items : List JsonValue}
    (read : List.Forall₂ (Reads scan) parts items) (nonempty : parts ≠ []) (text : List CodePoint) :
    skipSpace ((Str.ofString ", ").intercalate parts ++ text) =
      (Str.ofString ", ").intercalate parts ++ text := by
  obtain ⟨point, rest, begins, blank, _⟩ := intercalate_begins read nonempty text
  rw [begins]
  exact skipSpace_cons rest blank

theorem scanItems_intercalate {parts : List (List CodePoint)} {items : List JsonValue}
    (read : List.Forall₂ (Reads scan) parts items) (nonempty : parts ≠ []) {turns : Nat}
    (enough : parts.length ≤ turns) (text : List CodePoint) :
    scanItems scan turns ((Str.ofString ", ").intercalate parts ++ 0x5D :: text) =
      .ok (items, text) := by
  induction read generalizing turns with
  | nil => contradiction
  | @cons part item parts items reads others ih =>
      obtain ⟨turns, rfl⟩ : ∃ more, turns = more + 1 :=
        ⟨turns - 1, by rw [List.length_cons] at enough; omega⟩
      cases parts with
      | nil =>
          cases others
          rw [List.intercalate_singleton, scanItems, reads.scans _ (stops_cons _ (by decide))]
          rfl
      | cons next parts =>
          have fewer : (next :: parts).length ≤ turns := by simpa using enough
          have tail := ih (by simp) fewer
          rw [List.intercalate_cons_cons, List.append_assoc, List.append_assoc, comma_append,
            scanItems, reads.scans _ (stops_cons _ (by decide))]
          dsimp only
          rw [skipSpace_cons _ (by decide)]
          dsimp only
          rw [if_neg (by decide), if_pos (by decide), skipSpace_blank,
            intercalate_skip others (by simp), tail]
          rfl

theorem length_le_intercalate {parts : List (List CodePoint)}
    (nonempty : ∀ part ∈ parts, part ≠ []) :
    parts.length ≤ ((Str.ofString ", ").intercalate parts).length := by
  induction parts with
  | nil => exact Nat.zero_le _
  | cons part parts ih =>
      have first := List.length_pos_iff.mpr (nonempty part List.mem_cons_self)
      have others := ih fun part member => nonempty part (List.mem_cons_of_mem _ member)
      cases parts with
      | nil =>
          rw [List.intercalate_singleton]
          exact first
      | cons next parts =>
          rw [List.intercalate_cons_cons, List.length_append, List.length_append, List.length_cons]
          omega

theorem Reads.nonempty {written : List CodePoint} {value : JsonValue}
    (reads : Reads scan written value) : written ≠ [] := by
  obtain ⟨point, rest, rfl, _⟩ := reads.begins
  simp

theorem scanArray_intercalate {parts : List (List CodePoint)} {items : List JsonValue}
    (read : List.Forall₂ (Reads scan) parts items) (text : List CodePoint) :
    scanArray scan ((Str.ofString ", ").intercalate parts ++ 0x5D :: text) =
      .ok (.list items, text) := by
  cases parts with
  | nil =>
      cases read
      rfl
  | cons part parts =>
      have nonempty : ∀ part' ∈ part :: parts, part' ≠ [] := by
        intro part' member
        obtain ⟨index, found⟩ := List.mem_iff_getElem?.mp member
        obtain ⟨bound, rfl⟩ := List.getElem?_eq_some_iff.mp found
        exact (read.get bound (read.length_eq ▸ bound)).nonempty
      have enough := length_le_intercalate nonempty
      have bounded : (part :: parts).length ≤
          ((Str.ofString ", ").intercalate (part :: parts) ++ 0x5D :: text).length + 1 := by
        rw [List.length_append]
        omega
      have scanned := scanItems_intercalate read (by simp) bounded text
      obtain ⟨point, rest, begins, blank, closing⟩ :=
        intercalate_begins read (List.cons_ne_nil part parts) (0x5D :: text)
      rw [begins] at scanned ⊢
      rw [scanArray, skipSpace_cons _ blank]
      dsimp only
      rw [if_neg closing, scanned]
      rfl

/-- An entry behind the opening quote of its key. -/
def memberBody (key : Str) (written : List CodePoint) : List CodePoint :=
  key.codePoints.flatMap escapePoint ++ 0x22 :: 0x3A :: 0x20 :: written

theorem encoded_member (key : Str) (written : List CodePoint) :
    encodeString key ++ Str.ofString ": " ++ written = 0x22 :: memberBody key written := by
  have quote : Str.ofString "\"" = [0x22] := rfl
  have colon : Str.ofString ": " = [0x3A, 0x20] := rfl
  simp [encodeString, memberBody, quote, colon]

theorem scanMember_body {written : List CodePoint} {value : JsonValue}
    (reads : Reads scan written value) (key : Str) {text : List CodePoint} (stops : Stops text) :
    scanMember scan (memberBody key written ++ text) = .ok ((key, value), text) := by
  rw [memberBody, List.append_assoc, List.cons_append, scanMember, scanString_encoded]
  dsimp only
  rw [List.cons_append, skipSpace_cons _ (by decide)]
  dsimp only
  rw [if_pos (by decide), List.cons_append, skipSpace_blank, reads.skip, reads.scans text stops]
  rfl

/-- The texts of the values of a dictionary, in order. -/
def ReadsEntries (scan : List CodePoint → Scanned JsonValue) :
    List (Str × List CodePoint) → JsonObject → Prop :=
  List.Forall₂ fun field entry => field.1 = entry.1 ∧ Reads scan field.2 entry.2

def memberTexts (fields : List (Str × List CodePoint)) : List CodePoint :=
  (Str.ofString ", ").intercalate (fields.map fun field => 0x22 :: memberBody field.1 field.2)

theorem memberTexts_single (field : Str × List CodePoint) :
    memberTexts [field] = 0x22 :: memberBody field.1 field.2 :=
  List.intercalate_singleton

theorem memberTexts_cons (field next : Str × List CodePoint) (fields : List (Str × List CodePoint)) :
    memberTexts (field :: next :: fields) =
      0x22 :: (memberBody field.1 field.2 ++ 0x2C :: 0x20 :: memberTexts (next :: fields)) := by
  rw [memberTexts, List.map_cons, List.map_cons, List.intercalate_cons_cons, List.append_assoc,
    comma_append, ← List.map_cons (f := fun field : Str × List CodePoint =>
      0x22 :: memberBody field.1 field.2), ← memberTexts]
  rfl

theorem memberTexts_begins {fields : List (Str × List CodePoint)} (nonempty : fields ≠ []) :
    ∃ body, memberTexts fields = 0x22 :: body := by
  cases fields with
  | nil => contradiction
  | cons field fields =>
      cases fields with
      | nil => exact ⟨_, memberTexts_single field⟩
      | cons next fields => exact ⟨_, memberTexts_cons field next fields⟩

theorem scanMembers_intercalate {fields : List (Str × List CodePoint)} {entries : JsonObject}
    (read : ReadsEntries scan fields entries) (nonempty : fields ≠ []) {turns : Nat}
    (enough : fields.length ≤ turns) (text : List CodePoint) {body : List CodePoint}
    (begins : memberTexts fields = 0x22 :: body) :
    scanMembers scan turns (body ++ 0x7D :: text) = .ok (entries, text) := by
  induction read generalizing turns body with
  | nil => contradiction
  | @cons field entry fields entries reads others ih =>
      obtain ⟨turns, rfl⟩ : ∃ more, turns = more + 1 :=
        ⟨turns - 1, by rw [List.length_cons] at enough; omega⟩
      obtain ⟨key, written⟩ := field
      obtain ⟨same, reads⟩ := reads
      dsimp only at same reads
      cases fields with
      | nil =>
          cases others
          rw [memberTexts_single] at begins
          cases begins
          rw [scanMembers, scanMember_body reads key (stops_cons _ (by decide)), same]
          rfl
      | cons next fields =>
          rw [memberTexts_cons] at begins
          cases begins
          obtain ⟨body, begins⟩ := memberTexts_begins (List.cons_ne_nil next fields)
          have fewer : (next :: fields).length ≤ turns := by simpa using enough
          have tail := ih (by simp) fewer begins
          rw [begins, List.append_assoc, scanMembers, List.cons_append, List.cons_append,
            List.cons_append, scanMember_body reads key (stops_cons _ (by decide))]
          dsimp only
          rw [skipSpace_cons _ (by decide)]
          dsimp only
          rw [if_neg (by decide), if_pos (by decide), skipSpace_blank, skipSpace_cons _ (by decide)]
          dsimp only
          rw [if_pos (by decide), tail, same]
          rfl

theorem setEntry_fresh {key : Str} {entries : JsonObject} (value : JsonValue)
    (fresh : key ∉ entries.map Prod.fst) :
    setEntry key value entries = entries ++ [(key, value)] := by
  induction entries with
  | nil => rfl
  | cons entry rest ih =>
      rw [List.map_cons, List.mem_cons, not_or] at fresh
      rw [setEntry, if_neg (Ne.symm fresh.1), ih fresh.2]
      rfl

theorem dictOf_nodup {pairs : JsonObject} (distinct : (pairs.map Prod.fst).Nodup) :
    dictOf pairs = pairs := by
  have built (entries : JsonObject) (distinct : ((entries ++ pairs).map Prod.fst).Nodup) :
      pairs.foldl (fun entries pair => setEntry pair.1 pair.2 entries) entries =
        entries ++ pairs := by
    induction pairs generalizing entries with
    | nil => rw [List.append_nil]; rfl
    | cons pair rest ih =>
        have fresh : pair.1 ∉ entries.map Prod.fst := by
          rw [List.map_append, List.map_cons] at distinct
          intro member
          exact (List.disjoint_of_nodup_append distinct) member List.mem_cons_self
        rw [List.foldl_cons, setEntry_fresh pair.2 fresh, ih]
        · rw [List.append_assoc]
          rfl
        · rw [List.map_append, List.map_cons] at distinct
          exact (List.nodup_append.mp distinct).2.1.of_cons
        · rw [List.append_assoc]
          exact distinct
  exact built [] distinct

theorem scanObject_intercalate {fields : List (Str × List CodePoint)} {entries : JsonObject}
    (read : ReadsEntries scan fields entries) (distinct : (entries.map Prod.fst).Nodup)
    (text : List CodePoint) :
    scanObject scan (memberTexts fields ++ 0x7D :: text) = .ok (.dict entries, text) := by
  cases fields with
  | nil =>
      cases read
      rfl
  | cons field fields =>
      obtain ⟨body, begins⟩ := memberTexts_begins (List.cons_ne_nil field fields)
      have enough : (field :: fields).length ≤ (memberTexts (field :: fields)).length := by
        have filled : ∀ part ∈ (field :: fields).map fun field =>
            (0x22 : CodePoint) :: memberBody field.1 field.2, part ≠ [] := by
          intro part member
          obtain ⟨field, _, rfl⟩ := List.mem_map.mp member
          simp
        have parts := length_le_intercalate filled
        rwa [List.length_map] at parts
      have bounded : (field :: fields).length ≤
          (memberTexts (field :: fields) ++ 0x7D :: text).length + 1 := by
        rw [List.length_append]
        omega
      have scanned := scanMembers_intercalate read (by simp) bounded text begins
      rw [begins, List.cons_append] at scanned ⊢
      rw [scanObject, skipSpace_cons _ (by decide)]
      dsimp only
      rw [if_neg (by decide), if_pos (by decide), scanned]
      change Except.ok (JsonValue.dict (dictOf entries), text) = _
      rw [dictOf_nodup distinct]

end

section

variable {maxStrDigits : Nat}

/-- A constant or a number is looked for where no string or container begins. -/
theorem scanOnce_scalar {point : CodePoint} (rest : List CodePoint) (depth : Nat)
    (unquoted : point.val ≠ 0x22) (brace : point.val ≠ 0x7B) (bracket : point.val ≠ 0x5B) :
    scanOnce maxStrDigits depth (point :: rest) =
      (scanNumber maxStrDigits (point :: rest)).getD (scanConstant (point :: rest)) := by
  rw [scanOnce.eq_def]
  dsimp only
  rw [if_neg unquoted, if_neg brace, if_neg bracket]
  cases scanNumber maxStrDigits (point :: rest) <;> rfl

theorem scanNumber_none {point : CodePoint} (rest : List CodePoint) (sign : point.val ≠ 0x2D)
    (other : isDecimal point = false) : scanNumber maxStrDigits (point :: rest) = none := by
  have zero : point.val ≠ 0x30 := by
    intro same
    simp [isDecimal, same] at other
  simp [scanNumber, minusOf, sign, integerOf, zero, other]

/-- A number begins with its sign or with a digit. -/
theorem reads_number_text {written : List CodePoint} {value : JsonValue} (depth : Nat)
    (scans : ∀ text, Stops text →
      scanNumber maxStrDigits (written ++ text) = some (.ok (value, text))) :
    Reads (scanOnce maxStrDigits depth) written value := by
  have alone := scans [] stops_nil
  rw [List.append_nil] at alone
  cases written with
  | nil => cases alone
  | cons point rest =>
      have first : point.val = 0x2D ∨ isDecimal point = true := by
        by_contra other
        rw [not_or, Bool.not_eq_true] at other
        rw [scanNumber_none rest other.1 other.2] at alone
        cases alone
      have range : point.val = 0x2D ∨ 0x30 ≤ point.val ∧ point.val ≤ 0x39 := by
        simpa [isDecimal] using first
      refine ⟨fun text stops => ?_, point, rest, rfl, ?_, by omega⟩
      · rw [List.cons_append, scanOnce_scalar _ depth (by omega) (by omega) (by omega),
          ← List.cons_append, scans text stops]
        rfl
      · simp only [isJsonSpace, Bool.or_eq_false_iff, decide_eq_false_iff_not]
        omega

theorem encodeItems_parts {items : List JsonValue} {parts : List (List CodePoint)}
    (encoded : encodeItems maxStrDigits items = some parts) :
    List.Forall₂ (fun part item => encodeValue maxStrDigits item = some part) parts items := by
  induction items generalizing parts with
  | nil =>
      cases encoded
      exact .nil
  | cons item rest ih =>
      simp only [encodeItems, Option.bind_eq_bind, Option.bind_eq_some_iff, Option.some.injEq]
        at encoded
      obtain ⟨part, first, others, following, rfl⟩ := encoded
      exact .cons first (ih following)

theorem encodeEntries_fields {entries : JsonObject} {parts : List (List CodePoint)}
    (encoded : encodeEntries maxStrDigits entries = some parts) :
    ∃ fields : List (Str × List CodePoint),
      parts = fields.map (fun field => 0x22 :: memberBody field.1 field.2) ∧
      List.Forall₂ (fun field entry => field.1 = entry.1 ∧
        encodeValue maxStrDigits entry.2 = some field.2) fields entries := by
  induction entries generalizing parts with
  | nil =>
      cases encoded
      exact ⟨[], rfl, .nil⟩
  | cons entry rest ih =>
      obtain ⟨key, item⟩ := entry
      simp only [encodeEntries, Option.bind_eq_bind, Option.bind_eq_some_iff, Option.some.injEq]
        at encoded
      obtain ⟨part, first, others, following, rfl⟩ := encoded
      obtain ⟨fields, rfl, read⟩ := ih following
      exact ⟨(key, part) :: fields, by rw [encoded_member]; rfl, .cons ⟨rfl, first⟩ read⟩

theorem forall₂_imp_right {α β : Type} {first second : α → β → Prop} {left : List α} {right : List β}
    (related : List.Forall₂ first left right)
    (imply : ∀ a, ∀ b ∈ right, first a b → second a b) : List.Forall₂ second left right := by
  induction related with
  | nil => exact .nil
  | cons head _ ih =>
      exact .cons (imply _ _ List.mem_cons_self head)
        (ih fun a b member => imply a b (List.mem_cons_of_mem _ member))

/-- What the encoder writes of a value, the scanner reads as the value. -/
theorem reads_encoded {depth : Nat} {value : JsonValue} (formed : WellFormed depth value)
    {written : List CodePoint} (encoded : encodeValue maxStrDigits value = some written) :
    Reads (scanOnce maxStrDigits depth) written value := by
  induction formed generalizing written with
  | null =>
      cases encoded
      refine ⟨fun text _ => ?_, _, _, rfl, by decide, by decide⟩
      change scanOnce maxStrDigits _ (0x6E :: _) = _
      rw [scanOnce_scalar _ _ (by decide) (by decide) (by decide),
        scanNumber_none _ (by decide) (by decide)]
      rfl
  | bool truth =>
      cases encoded
      cases truth with
      | true =>
          refine ⟨fun text _ => ?_, _, _, rfl, by decide, by decide⟩
          change scanOnce maxStrDigits _ (0x74 :: _) = _
          rw [scanOnce_scalar _ _ (by decide) (by decide) (by decide),
            scanNumber_none _ (by decide) (by decide)]
          rfl
      | false =>
          refine ⟨fun text _ => ?_, _, _, rfl, by decide, by decide⟩
          change scanOnce maxStrDigits _ (0x66 :: _) = _
          rw [scanOnce_scalar _ _ (by decide) (by decide) (by decide),
            scanNumber_none _ (by decide) (by decide)]
          rfl
  | int value =>
      simp only [encodeValue] at encoded
      split at encoded
      · next short =>
        cases encoded
        exact reads_number_text _ fun text stops => scanNumber_int short stops
      · contradiction
  | float bits =>
      simp only [encodeValue] at encoded
      split at encoded
      · next finite =>
        cases encoded
        exact reads_number_text _ fun text stops => scanNumber_float finite stops
      · contradiction
  | str text =>
      cases encoded
      refine ⟨fun following _ => ?_, _, _, rfl, by decide, by decide⟩
      have whole : encodeString text ++ following =
          0x22 :: (text.codePoints.flatMap escapePoint ++ 0x22 :: following) := by
        have quote : Str.ofString "\"" = [0x22] := rfl
        simp [encodeString, quote]
      rw [whole, scanOnce.eq_def]
      dsimp only
      rw [if_pos (by decide), scanString_encoded]
      rfl
  | @list depth items formed ih =>
      rw [encodeValue, Option.map_eq_some_iff] at encoded
      obtain ⟨parts, encoded, rfl⟩ := encoded
      have read := forall₂_imp_right (encodeItems_parts encoded) fun part item member first =>
        ih item member first
      refine ⟨fun text _ => ?_, _, _, rfl, by decide, by decide⟩
      rw [List.append_assoc, List.append_assoc]
      change scanOnce maxStrDigits (depth + 1) (0x5B :: (_ ++ 0x5D :: text)) = _
      rw [scanOnce.eq_def]
      dsimp only
      rw [if_neg (by decide), if_neg (by decide), if_pos (by decide)]
      exact scanArray_intercalate read text
  | @dict depth entries distinct formed ih =>
      rw [encodeValue, Option.map_eq_some_iff] at encoded
      obtain ⟨parts, encoded, rfl⟩ := encoded
      obtain ⟨fields, rfl, written⟩ := encodeEntries_fields encoded
      have read : ReadsEntries (scanOnce maxStrDigits depth) fields entries :=
        forall₂_imp_right written fun field entry member first =>
          ⟨first.1, ih entry member first.2⟩
      refine ⟨fun text _ => ?_, _, _, rfl, by decide, by decide⟩
      rw [List.append_assoc, List.append_assoc]
      change scanOnce maxStrDigits (depth + 1) (0x7B :: (memberTexts fields ++ 0x7D :: text)) = _
      rw [scanOnce.eq_def]
      dsimp only
      rw [if_neg (by decide), if_pos (by decide)]
      exact scanObject_intercalate read distinct text

/-- Decoding is the inverse of encoding. -/
theorem decode_encode {depth : Nat} {value : JsonValue} (formed : WellFormed depth value)
    {written : List CodePoint} (encoded : encodeValue maxStrDigits value = some written) :
    decodeText maxStrDigits depth written = .ok value := by
  have reads := reads_encoded formed encoded
  have scanned := reads.scans [] stops_nil
  have skipped := reads.skip []
  rw [List.append_nil] at scanned skipped
  rw [decodeText, skipped, scanned]
  rfl

end

end StreamDockSdk
