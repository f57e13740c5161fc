import StreamDockSdk.Json.Decoded

namespace StreamDockSdk

/-- What a successful scan leaves is shorter than the text. -/
def Consumes {α : Type} (scan : List CodePoint → Scanned α) : Prop :=
  ∀ text value rest, scan text = .ok (value, rest) → rest.length < text.length

theorem scanString_consumes : Consumes scanString := by
  intro text
  induction measured : text.length using Nat.strongRecOn generalizing text with
  | ind size ih =>
      intro points rest scanned
      have recurse {after : List CodePoint} {f : List CodePoint → List CodePoint}
          (shorter : after.length < size)
          (scanned : (scanString after).map f = .ok (points, rest)) : rest.length < size := by
        obtain ⟨value, found, _⟩ := Scanned.map_ok scanned
        exact Nat.lt_trans (ih _ shorter _ rfl _ _ found) shorter
      subst measured
      rw [scanString.eq_def] at scanned
      split at scanned
      · cases scanned
      split at scanned
      · cases scanned
        simp
      split at scanned
      · split at scanned
        · cases scanned
        split at scanned
        · split at scanned
          · split at scanned
            · cases scanned
            · dsimp only at scanned
              split at scanned
              · split at scanned
                · split at scanned
                  · split at scanned
                    · cases scanned
                    split at scanned
                    · exact recurse (by simp only [List.length_cons]; omega) scanned
                    · exact recurse (by simp only [List.length_cons]; omega) scanned
                  · exact recurse (by simp only [List.length_cons]; omega) scanned
                · exact recurse (by simp only [List.length_cons]; omega) scanned
              · exact recurse (by simp only [List.length_cons]; omega) scanned
          · cases scanned
        · split at scanned
          · cases scanned
          · exact recurse (by simp only [List.length_cons]; omega) scanned
      split at scanned
      · cases scanned
      · exact recurse (by simp only [List.length_cons]; omega) scanned

theorem skipSpace_length (text : List CodePoint) : (skipSpace text).length ≤ text.length :=
  (List.dropWhile_suffix _).length_le

theorem digitsOf_length (text : List CodePoint) : (digitsOf text).2.length ≤ text.length :=
  (List.dropWhile_suffix _).length_le

theorem fractionOf_length (text : List CodePoint) : (fractionOf text).2.length ≤ text.length := by
  unfold fractionOf
  split
  · rfl
  · next point rest =>
    have digits := digitsOf_length rest
    dsimp only
    split
    · exact Nat.le_succ_of_le digits
    · rfl

theorem exponentOf_length (text : List CodePoint) : (exponentOf text).2.length ≤ text.length := by
  unfold exponentOf
  split
  · rfl
  · next point rest =>
    have sign : (signOf rest).2.length ≤ rest.length := by
      unfold signOf
      split
      · rfl
      split
      · exact Nat.le_succ _
      split
      · exact Nat.le_succ _
      · rfl
    have digits := digitsOf_length (signOf rest).2
    dsimp only
    split
    · exact Nat.le_succ_of_le (Nat.le_trans digits sign)
    · rfl

theorem integerOf_length {text digits rest : List CodePoint}
    (found : integerOf text = some (digits, rest)) : rest.length < text.length := by
  unfold integerOf at found
  split at found
  · cases found
  split at found
  · cases found
    exact Nat.lt_succ_self _
  split at found
  · next digit =>
    cases found
    rw [List.dropWhile_cons_of_pos digit]
    exact Nat.lt_succ_of_le ((List.dropWhile_suffix _).length_le)
  · cases found

theorem minusOf_length (text : List CodePoint) : (minusOf text).2.length ≤ text.length := by
  unfold minusOf
  split
  · rfl
  split
  · exact Nat.le_succ _
  · rfl

theorem scanNumber_length {maxStrDigits : Nat} {text rest : List CodePoint} {value : JsonValue}
    (scanned : scanNumber maxStrDigits text = some (.ok (value, rest))) :
    rest.length < text.length := by
  simp only [scanNumber, Option.map_eq_some_iff] at scanned
  obtain ⟨⟨integer, after⟩, found, scanned⟩ := scanned
  have integral := integerOf_length found
  have minus := minusOf_length text
  have fraction := fractionOf_length after
  have exponent := exponentOf_length (fractionOf after).2
  dsimp only at scanned
  generalize exponentOf (fractionOf after).2 = behind at scanned exponent
  obtain ⟨power, behind⟩ := behind
  split at scanned
  · next same =>
    cases same
    split at scanned
    · cases scanned
      dsimp only at exponent
      omega
    · cases scanned
  · next same _ =>
    cases same
    cases scanned
    dsimp only at exponent
    omega

theorem isPrefixOf?_length {word text rest : List CodePoint} (nonempty : word ≠ [])
    (found : word.isPrefixOf? text = some rest) : rest.length < text.length := by
  induction word generalizing text with
  | nil => contradiction
  | cons first others ih =>
      cases text with
      | nil => cases found
      | cons point text =>
          rw [List.isPrefixOf?] at found
          split at found
          · cases others with
            | nil =>
                cases found
                exact Nat.lt_succ_self _
            | cons second others => exact Nat.lt_succ_of_lt (ih (by simp) found)
          · cases found

theorem scanConstant_consumes : Consumes scanConstant := by
  intro text value rest scanned
  unfold scanConstant at scanned
  split at scanned
  · next found =>
    cases scanned
    exact isPrefixOf?_length (by decide) found
  split at scanned
  · next found =>
    cases scanned
    exact isPrefixOf?_length (by decide) found
  split at scanned
  · next found =>
    cases scanned
    exact isPrefixOf?_length (by decide) found
  split at scanned <;> cases scanned

section

variable {scan : List CodePoint → Scanned JsonValue}

theorem scanItems_consumes (consumes : Consumes scan) (turns : Nat) :
    Consumes (scanItems scan turns) := by
  induction turns with
  | zero =>
      intro text items rest scanned
      cases scanned
  | succ turns ih =>
      intro text items rest scanned
      unfold scanItems at scanned
      split at scanned
      · cases scanned
      next item after first =>
      have shorter := consumes text item after first
      have skipped := skipSpace_length after
      split at scanned
      · cases scanned
      next point behind found =>
      rw [found, List.length_cons] at skipped
      split at scanned
      · cases scanned
        omega
      split at scanned
      · obtain ⟨others, following, _⟩ := Scanned.map_ok scanned
        have later := ih _ _ _ following
        have blanks := skipSpace_length behind
        omega
      · cases scanned

theorem scanMember_consumes (consumes : Consumes scan) : Consumes (scanMember scan) := by
  intro text entry rest scanned
  unfold scanMember at scanned
  split at scanned
  · cases scanned
  next key after first =>
  have shorter := scanString_consumes text key after first
  have skipped := skipSpace_length after
  split at scanned
  · cases scanned
  next colon behind found =>
  rw [found, List.length_cons] at skipped
  split at scanned
  · obtain ⟨value, following, _⟩ := Scanned.map_ok scanned
    have later := consumes _ _ _ following
    have blanks := skipSpace_length behind
    omega
  · cases scanned

theorem scanMembers_consumes (consumes : Consumes scan) (turns : Nat) :
    Consumes (scanMembers scan turns) := by
  induction turns with
  | zero =>
      intro text entries rest scanned
      cases scanned
  | succ turns ih =>
      intro text entries rest scanned
      unfold scanMembers at scanned
      split at scanned
      · cases scanned
      next entry after first =>
      have shorter := scanMember_consumes consumes text entry after first
      have skipped := skipSpace_length after
      split at scanned
      · cases scanned
      next point behind found =>
      rw [found, List.length_cons] at skipped
      split at scanned
      · cases scanned
        omega
      split at scanned
      · have blanks := skipSpace_length behind
        split at scanned
        · cases scanned
        next quote inside opened =>
        rw [opened, List.length_cons] at blanks
        split at scanned
        · obtain ⟨others, following, _⟩ := Scanned.map_ok scanned
          have later := ih _ _ _ following
          omega
        · cases scanned
      · cases scanned

/-- More turns than the text has code points are never used up. -/
theorem scanItems_turns (consumes : Consumes scan) {turns more : Nat} {text : List CodePoint}
    (enough : text.length < turns) (also : text.length < more) :
    scanItems scan turns text = scanItems scan more text := by
  induction turns generalizing more text with
  | zero => contradiction
  | succ turns ih =>
      obtain ⟨more, rfl⟩ : ∃ less, more = less + 1 := ⟨more - 1, by omega⟩
      unfold scanItems
      split
      · rfl
      next item after first =>
      have shorter := consumes text item after first
      have skipped := skipSpace_length after
      split
      · rfl
      next point behind found =>
      rw [found, List.length_cons] at skipped
      have blanks := skipSpace_length behind
      have same : scanItems scan turns (skipSpace behind) = scanItems scan more (skipSpace behind) :=
        ih (by omega) (by omega)
      rw [same]

theorem scanMembers_turns (consumes : Consumes scan) {turns more : Nat} {text : List CodePoint}
    (enough : text.length < turns) (also : text.length < more) :
    scanMembers scan turns text = scanMembers scan more text := by
  induction turns generalizing more text with
  | zero => contradiction
  | succ turns ih =>
      obtain ⟨more, rfl⟩ : ∃ less, more = less + 1 := ⟨more - 1, by omega⟩
      unfold scanMembers
      split
      · rfl
      next entry after first =>
      have shorter := scanMember_consumes consumes text entry after first
      have skipped := skipSpace_length after
      split
      · rfl
      next point behind found =>
      rw [found, List.length_cons] at skipped
      have blanks := skipSpace_length behind
      split
      · rfl
      split
      · split
        · rfl
        next quote inside opened =>
        rw [opened, List.length_cons] at blanks
        have same : scanMembers scan turns inside = scanMembers scan more inside :=
          ih (by omega) (by omega)
        rw [same]
      · rfl

theorem scanArray_consumes (consumes : Consumes scan) : Consumes (scanArray scan) := by
  intro text value rest scanned
  unfold scanArray at scanned
  have skipped := skipSpace_length text
  split at scanned
  · cases scanned
  next point behind found =>
  rw [found, List.length_cons] at skipped
  split at scanned
  · cases scanned
    omega
  · obtain ⟨items, following, _⟩ := Scanned.map_ok scanned
    have later := scanItems_consumes consumes _ _ _ _ following
    rw [List.length_cons] at later
    omega

theorem scanObject_consumes (consumes : Consumes scan) : Consumes (scanObject scan) := by
  intro text value rest scanned
  unfold scanObject at scanned
  have skipped := skipSpace_length text
  split at scanned
  · cases scanned
  next point behind found =>
  rw [found, List.length_cons] at skipped
  split at scanned
  · cases scanned
    omega
  split at scanned
  · obtain ⟨pairs, following, _⟩ := Scanned.map_ok scanned
    have later := scanMembers_consumes consumes _ _ _ _ following
    omega
  · cases scanned

end

theorem scanOnce_shorter {maxStrDigits depth : Nat}
    (below : ∀ less, depth = less + 1 → Consumes (scanOnce maxStrDigits less)) :
    Consumes (scanOnce maxStrDigits depth) := by
  intro text value rest scanned
  rw [scanOnce.eq_def] at scanned
  split at scanned
  · cases scanned
  next point after =>
  split at scanned
  · obtain ⟨points, found, _⟩ := Scanned.map_ok scanned
    exact Nat.lt_succ_of_lt (scanString_consumes _ _ _ found)
  split at scanned
  · split at scanned
    · cases scanned
    · next less => exact Nat.lt_succ_of_lt (scanObject_consumes (below less rfl) _ _ _ scanned)
  split at scanned
  · split at scanned
    · cases scanned
    · next less => exact Nat.lt_succ_of_lt (scanArray_consumes (below less rfl) _ _ _ scanned)
  split at scanned
  · next found =>
    rw [scanned] at found
    exact scanNumber_length found
  · exact scanConstant_consumes _ _ _ scanned

theorem scanOnce_consumes (maxStrDigits depth : Nat) : Consumes (scanOnce maxStrDigits depth) := by
  induction depth with
  | zero => exact scanOnce_shorter fun less none => by contradiction
  | succ depth ih =>
      refine scanOnce_shorter fun less same => ?_
      cases same
      exact ih

end StreamDockSdk
