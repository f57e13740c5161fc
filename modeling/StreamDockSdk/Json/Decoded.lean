import StreamDockSdk.Json.Clone
import StreamDockSdk.Json.Fields
import StreamDockSdk.Json.RoundTrip

namespace StreamDockSdk

/-- The bits are not those of a NaN. -/
def isNumber (bits : BitVec 64) : Bool :=
  bits.toNat % 2 ^ 63 ≤ 2047 * 2 ^ 52

/-- A scalar that some text is read as. -/
def PyValue.readable (maxStrDigits : Nat) : PyValue → Bool
  | .int value => printable maxStrDigits value
  | .float bits => isNumber bits
  | _ => true

/-- A decoded value: well-formed, of scalars that have a text. -/
structure Decoded (maxStrDigits depth : Nat) (value : JsonValue) : Prop where
  formed : WellFormed depth value
  readable : ∀ scalar ∈ value.scalars, scalar.readable maxStrDigits = true

theorem setEntry_keys (key : Str) (value : JsonValue) (entries : JsonObject) :
    (setEntry key value entries).map Prod.fst =
      if key ∈ entries.map Prod.fst then entries.map Prod.fst
      else entries.map Prod.fst ++ [key] := by
  induction entries with
  | nil => rfl
  | cons entry rest ih =>
      obtain ⟨other, old⟩ := entry
      unfold setEntry
      by_cases same : other = key
      · simp [same]
      · have different : ¬ key = other := fun equal => same equal.symm
        rw [if_neg same, List.map_cons, ih]
        simp only [List.map_cons, List.mem_cons, different, false_or]
        split <;> simp

theorem setEntry_nodup (key : Str) (value : JsonValue) {entries : JsonObject}
    (distinct : (entries.map Prod.fst).Nodup) :
    ((setEntry key value entries).map Prod.fst).Nodup := by
  rw [setEntry_keys]
  split
  · exact distinct
  · next fresh =>
    rw [← List.concat_eq_append]
    exact distinct.concat fresh

theorem mem_setEntry {key : Str} {value : JsonValue} {entries : JsonObject} {entry : Str × JsonValue}
    (member : entry ∈ setEntry key value entries) : entry = (key, value) ∨ entry ∈ entries := by
  induction entries with
  | nil => exact .inl (List.mem_singleton.mp member)
  | cons first rest ih =>
      obtain ⟨other, old⟩ := first
      unfold setEntry at member
      split at member
      · rcases List.mem_cons.mp member with same | later
        · exact .inl same
        · exact .inr (List.mem_cons_of_mem _ later)
      · rcases List.mem_cons.mp member with same | later
        · exact .inr (same ▸ List.mem_cons_self)
        · exact (ih later).imp_right (List.mem_cons_of_mem _)

/-- The entries of a dictionary are among the pairs it is made of, each key only once. -/
theorem dictOf_entries (pairs : JsonObject) :
    ((dictOf pairs).map Prod.fst).Nodup ∧ ∀ entry ∈ dictOf pairs, entry ∈ pairs := by
  have built (entries : JsonObject) (distinct : (entries.map Prod.fst).Nodup) :
      ((pairs.foldl (fun entries pair => setEntry pair.1 pair.2 entries) entries).map
        Prod.fst).Nodup ∧
      ∀ entry ∈ pairs.foldl (fun entries pair => setEntry pair.1 pair.2 entries) entries,
        entry ∈ entries ∨ entry ∈ pairs := by
    induction pairs generalizing entries with
    | nil => exact ⟨distinct, fun entry member => .inl member⟩
    | cons pair rest ih =>
        obtain ⟨kept, within⟩ := ih _ (setEntry_nodup pair.1 pair.2 distinct)
        refine ⟨kept, fun entry member => ?_⟩
        rcases within entry member with earlier | later
        · rcases mem_setEntry earlier with same | earlier
          · exact .inr (same ▸ List.mem_cons_self)
          · exact .inl earlier
        · exact .inr (List.mem_cons_of_mem _ later)
  obtain ⟨distinct, within⟩ := built [] List.nodup_nil
  refine ⟨distinct, fun entry member => ?_⟩
  rcases within entry member with none | found
  · contradiction
  · exact found

section

variable {scan : List CodePoint → Scanned JsonValue} {holds : JsonValue → Prop}

theorem Scanned.map_ok {α β : Type} {f : α → β} {scanned : Scanned α} {result : β}
    {rest : List CodePoint} (ok : scanned.map f = .ok (result, rest)) :
    ∃ value, scanned = .ok (value, rest) ∧ f value = result := by
  cases scanned with
  | error failure => cases ok
  | ok pair =>
      cases ok
      exact ⟨pair.1, rfl, rfl⟩

theorem scanItems_each (each : ∀ text item rest, scan text = .ok (item, rest) → holds item)
    {turns : Nat} {text rest : List CodePoint} {items : List JsonValue}
    (scanned : scanItems scan turns text = .ok (items, rest)) : ∀ item ∈ items, holds item := by
  induction turns generalizing text items with
  | zero => cases scanned
  | succ turns ih =>
      unfold scanItems at scanned
      split at scanned
      · cases scanned
      next item after first =>
      have held := each text item after first
      split at scanned
      · cases scanned
      split at scanned
      · cases scanned
        simpa using held
      split at scanned
      · obtain ⟨others, following, rfl⟩ := Scanned.map_ok scanned
        exact List.forall_mem_cons.mpr ⟨held, ih following⟩
      · cases scanned

theorem scanMember_each (each : ∀ text item rest, scan text = .ok (item, rest) → holds item)
    {text rest : List CodePoint} {entry : Str × JsonValue}
    (scanned : scanMember scan text = .ok (entry, rest)) : holds entry.2 := by
  unfold scanMember at scanned
  split at scanned
  · cases scanned
  split at scanned
  · cases scanned
  split at scanned
  · obtain ⟨value, found, rfl⟩ := Scanned.map_ok scanned
    exact each _ _ _ found
  · cases scanned

theorem scanMembers_each (each : ∀ text item rest, scan text = .ok (item, rest) → holds item)
    {turns : Nat} {text rest : List CodePoint} {entries : JsonObject}
    (scanned : scanMembers scan turns text = .ok (entries, rest)) :
    ∀ entry ∈ entries, holds entry.2 := by
  induction turns generalizing text entries with
  | zero => cases scanned
  | succ turns ih =>
      unfold scanMembers at scanned
      split at scanned
      · cases scanned
      next entry after first =>
      have held := scanMember_each each first
      split at scanned
      · cases scanned
      split at scanned
      · cases scanned
        simpa using held
      split at scanned
      · split at scanned
        · cases scanned
        split at scanned
        · obtain ⟨others, following, rfl⟩ := Scanned.map_ok scanned
          exact List.forall_mem_cons.mpr ⟨held, ih following⟩
        · cases scanned
      · cases scanned

theorem scanArray_each (each : ∀ text item rest, scan text = .ok (item, rest) → holds item)
    {text rest : List CodePoint} {value : JsonValue} (scanned : scanArray scan text = .ok (value, rest)) :
    ∃ items, value = .list items ∧ ∀ item ∈ items, holds item := by
  unfold scanArray at scanned
  split at scanned
  · cases scanned
  split at scanned
  · cases scanned
    exact ⟨[], rfl, by simp⟩
  · obtain ⟨items, found, rfl⟩ := Scanned.map_ok scanned
    exact ⟨items, rfl, scanItems_each each found⟩

theorem scanObject_each (each : ∀ text item rest, scan text = .ok (item, rest) → holds item)
    {text rest : List CodePoint} {value : JsonValue}
    (scanned : scanObject scan text = .ok (value, rest)) :
    ∃ entries, value = .dict entries ∧ (entries.map Prod.fst).Nodup ∧
      ∀ entry ∈ entries, holds entry.2 := by
  unfold scanObject at scanned
  split at scanned
  · cases scanned
  split at scanned
  · cases scanned
    exact ⟨[], rfl, by simp, by simp⟩
  split at scanned
  · obtain ⟨pairs, found, rfl⟩ := Scanned.map_ok scanned
    obtain ⟨distinct, within⟩ := dictOf_entries pairs
    exact ⟨dictOf pairs, rfl, distinct,
      fun entry member => scanMembers_each each found entry (within entry member)⟩
  · cases scanned

end

theorem nearest_le (number : Rat) : PyFloat.nearest number ≤ 2047 * 2 ^ 52 :=
  Nat.min_le_right _ _

theorem floatOfDecimal_isNumber (negative : Bool) (digits : Nat) (scale : Int) :
    isNumber (floatOfDecimal negative digits scale) = true := by
  have bound : (if digits = 0 then 0 else PyFloat.nearest (digits * 10 ^ scale)) ≤ 2047 * 2 ^ 52 := by
    split
    · omega
    · exact nearest_le _
  unfold isNumber floatOfDecimal
  dsimp only
  generalize (if digits = 0 then 0 else PyFloat.nearest (digits * 10 ^ scale)) = magnitude at bound
  rw [BitVec.toNat_ofNat, decide_eq_true_eq]
  split <;> omega

section

variable {maxStrDigits : Nat}

theorem numeral_lt {digits : List CodePoint} (decimal : digits.all isDecimal = true) :
    numeral digits < 10 ^ digits.length := by
  have folded (value : Nat) :
      digits.foldl (fun value point => 10 * value + (point.val - 0x30)) value <
        (value + 1) * 10 ^ digits.length := by
    induction digits generalizing value with
    | nil => simp
    | cons point rest ih =>
        rw [List.all_cons, Bool.and_eq_true] at decimal
        have digit := decimal.1
        simp only [isDecimal, Bool.and_eq_true, decide_eq_true_eq] at digit
        have following := ih decimal.2 (10 * value + (point.val - 0x30))
        have larger : 10 * value + (point.val - 0x30) + 1 ≤ 10 * (value + 1) := by omega
        calc _ < (10 * value + (point.val - 0x30) + 1) * 10 ^ rest.length := following
          _ ≤ 10 * (value + 1) * 10 ^ rest.length := Nat.mul_le_mul_right _ larger
          _ = (value + 1) * 10 ^ (point :: rest).length := by
            rw [List.length_cons, Nat.pow_succ]
            ring
  simpa [numeral] using folded 0

theorem integerOf_digits {text digits rest : List CodePoint}
    (found : integerOf text = some (digits, rest)) :
    digits.all isDecimal = true ∧ digits ≠ [] := by
  unfold integerOf at found
  split at found
  · cases found
  split at found
  · next point _ zero =>
    cases found
    simp [isDecimal, zero]
  split at found
  · next digit =>
    cases found
    refine ⟨List.all_takeWhile, ?_⟩
    rw [List.takeWhile_cons_of_pos digit]
    simp
  · cases found

/-- A text that is read as an integer is at least as long as the one that is written for it. -/
theorem printable_numeral {digits : List CodePoint} (decimal : digits.all isDecimal = true)
    (nonempty : digits ≠ []) (short : maxStrDigits = 0 ∨ digits.length ≤ maxStrDigits)
    (negative : Bool) :
    printable maxStrDigits (if negative then -(numeral digits : Int) else numeral digits) = true := by
  have written : (Nat.toDigits 10 (numeral digits)).length ≤ digits.length :=
    (Nat.length_toDigits_le_iff (by decide) (List.length_pos_iff.mpr nonempty)).mpr
      (numeral_lt decimal)
  have magnitude :
      (if negative then -(numeral digits : Int) else numeral digits).natAbs = numeral digits := by
    cases negative <;> simp
  rw [printable, magnitude, Nat.toString_eq_ofList_toDigits, String.length_ofList]
  simp only [Bool.or_eq_true, decide_eq_true_eq]
  omega

theorem scanNumber_readable {text rest : List CodePoint} {value : JsonValue}
    (scanned : scanNumber maxStrDigits text = some (.ok (value, rest))) :
    (∃ number, value = .int number ∧ printable maxStrDigits number = true) ∨
      ∃ bits, value = .float bits ∧ isNumber bits = true := by
  simp only [scanNumber, Option.map_eq_some_iff] at scanned
  obtain ⟨⟨integer, after⟩, found, scanned⟩ := scanned
  obtain ⟨decimal, nonempty⟩ := integerOf_digits found
  dsimp only at scanned
  split at scanned
  · split at scanned
    · next short =>
      cases scanned
      exact .inl ⟨_, rfl, printable_numeral decimal nonempty short _⟩
    · cases scanned
  · cases scanned
    exact .inr ⟨_, rfl, floatOfDecimal_isNumber _ _ _⟩

theorem scanConstant_cases {text rest : List CodePoint} {value : JsonValue}
    (scanned : scanConstant text = .ok (value, rest)) :
    value = .null ∨ ∃ truth, value = .bool truth := by
  unfold scanConstant at scanned
  split at scanned
  · cases scanned
    exact .inl rfl
  split at scanned
  · cases scanned
    exact .inr ⟨true, rfl⟩
  split at scanned
  · cases scanned
    exact .inr ⟨false, rfl⟩
  split at scanned <;> cases scanned

/-- A scalar is decoded at any depth; a container takes one level of it. -/
theorem scanOnce_cases {depth : Nat} {text rest : List CodePoint} {value : JsonValue}
    (scanned : scanOnce maxStrDigits depth text = .ok (value, rest)) :
    (∀ level, Decoded maxStrDigits level value) ∨
      ∃ less after, depth = less + 1 ∧
        (scanObject (scanOnce maxStrDigits less) after = .ok (value, rest) ∨
          scanArray (scanOnce maxStrDigits less) after = .ok (value, rest)) := by
  rw [scanOnce.eq_def] at scanned
  split at scanned
  · cases scanned
  next point after =>
  split at scanned
  · obtain ⟨points, _, rfl⟩ := Scanned.map_ok scanned
    exact .inl fun level => ⟨.str _, by simp [JsonValue.scalars, PyValue.readable]⟩
  split at scanned
  · split at scanned
    · cases scanned
    · next less => exact .inr ⟨less, after, rfl, .inl scanned⟩
  split at scanned
  · split at scanned
    · cases scanned
    · next less => exact .inr ⟨less, after, rfl, .inr scanned⟩
  left
  intro level
  split at scanned
  · next found =>
    rw [scanned] at found
    rcases scanNumber_readable found with ⟨number, rfl, short⟩ | ⟨bits, rfl, number⟩
    · exact ⟨.int number, by simpa [JsonValue.scalars, PyValue.readable] using short⟩
    · exact ⟨.float bits, by simpa [JsonValue.scalars, PyValue.readable] using number⟩
  · rcases scanConstant_cases scanned with rfl | ⟨truth, rfl⟩
    · exact ⟨.null, by simp [JsonValue.scalars, PyValue.readable]⟩
    · exact ⟨.bool truth, by simp [JsonValue.scalars, PyValue.readable]⟩

/-- What the scanner returns. -/
theorem scanOnce_decoded {depth : Nat} {text rest : List CodePoint} {value : JsonValue}
    (scanned : scanOnce maxStrDigits depth text = .ok (value, rest)) :
    Decoded maxStrDigits depth value := by
  induction depth generalizing text value rest with
  | zero =>
      rcases scanOnce_cases scanned with scalar | ⟨less, after, none, _⟩
      · exact scalar 0
      · contradiction
  | succ depth ih =>
      rcases scanOnce_cases scanned with scalar | ⟨less, after, same, object | array⟩
      · exact scalar (depth + 1)
      · cases same
        obtain ⟨entries, rfl, distinct, each⟩ := scanObject_each (fun _ _ _ => ih) object
        refine ⟨.dict distinct fun entry member => (each entry member).formed, fun scalar within => ?_⟩
        rw [JsonValue.scalars, scalarsOfEntries_eq, List.mem_flatMap] at within
        obtain ⟨entry, member, within⟩ := within
        rcases List.mem_cons.mp within with rfl | within
        · rfl
        · exact (each entry member).readable scalar within
      · cases same
        obtain ⟨items, rfl, each⟩ := scanArray_each (fun _ _ _ => ih) array
        refine ⟨.list fun item member => (each item member).formed, fun scalar within => ?_⟩
        rw [JsonValue.scalars, scalarsOfItems_eq, List.mem_flatMap] at within
        obtain ⟨item, member, within⟩ := within
        exact (each item member).readable scalar within

theorem decodeText_decoded {depth : Nat} {text : List CodePoint} {value : JsonValue}
    (decoded : decodeText maxStrDigits depth text = .ok value) :
    Decoded maxStrDigits depth value := by
  unfold decodeText at decoded
  simp only [bind, Except.bind] at decoded
  split at decoded
  · cases decoded
  next pair scanned =>
  split at decoded
  · cases decoded
    exact scanOnce_decoded scanned
  · cases decoded

theorem WellFormed.mono {depth more : Nat} {value : JsonValue} (formed : WellFormed depth value)
    (le : depth ≤ more) : WellFormed more value := by
  induction formed generalizing more with
  | null => exact .null
  | bool value => exact .bool value
  | int value => exact .int value
  | float bits => exact .float bits
  | str value => exact .str value
  | @list depth items _ ih =>
      obtain ⟨more, rfl⟩ : ∃ less, more = less + 1 := ⟨more - 1, by omega⟩
      exact .list fun item member => ih item member (by omega)
  | @dict depth entries distinct _ ih =>
      obtain ⟨more, rfl⟩ : ∃ less, more = less + 1 := ⟨more - 1, by omega⟩
      exact .dict distinct fun entry member => ih entry member (by omega)

/-- A finite decoded value can be written again, and is read as the same value. -/
theorem Decoded.rewritten {depth : Nat} {value : JsonValue}
    (decoded : Decoded maxStrDigits depth value)
    (finite : ∀ bits, .float bits ∈ value.scalars → isFinite bits = true) :
    ∃ written, encodeValue maxStrDigits value = some written ∧
      decodeText maxStrDigits depth written = .ok value := by
  have texts : (encodeValue maxStrDigits value).isSome = true := by
    rw [encodeValue_isSome, List.all_eq_true]
    intro scalar member
    cases scalar with
    | int number => exact decoded.readable _ member
    | float bits => exact finite bits member
    | _ => rfl
  obtain ⟨written, encoded⟩ := Option.isSome_iff_exists.mp texts
  exact ⟨written, encoded, decode_encode decoded.formed encoded⟩

end

mutual

/-- The objects that the decoder makes for a value, in the order of their completion. -/
def store : JsonValue → PyHeap → PyValue × PyHeap
  | .null, heap => (.none, heap)
  | .bool value, heap => (.bool value, heap)
  | .int value, heap => (.int value, heap)
  | .float bits, heap => (.float bits, heap)
  | .str value, heap => (.str value, heap)
  | .list items, heap =>
      let stored := storeItems items heap
      (.container stored.2.length, stored.2 ++ [.list stored.1])
  | .dict entries, heap =>
      let stored := storeEntries entries heap
      (.container stored.2.length, stored.2 ++ [.dict stored.1])

def storeItems : List JsonValue → PyHeap → List PyValue × PyHeap
  | [], heap => ([], heap)
  | item :: rest, heap =>
      let first := store item heap
      let others := storeItems rest first.2
      (first.1 :: others.1, others.2)

def storeEntries : JsonObject → PyHeap → List (PyValue × PyValue) × PyHeap
  | [], heap => ([], heap)
  | (key, item) :: rest, heap =>
      let first := store item heap
      let others := storeEntries rest first.2
      ((.str key, first.1) :: others.1, others.2)

end

/-- The value on the heap is the JSON value; unlike `DenotesJson` it may be nested to any
depth and have floats that are not finite. -/
inductive Stored (heap : PyHeap) : PyValue → JsonValue → Prop
  | null : Stored heap .none .null
  | bool (value : Bool) : Stored heap (.bool value) (.bool value)
  | int (value : Int) : Stored heap (.int value) (.int value)
  | float (bits : BitVec 64) : Stored heap (.float bits) (.float bits)
  | str (value : Str) : Stored heap (.str value) (.str value)
  | list {identity : Nat} {values : List PyValue} {items : List JsonValue} :
      heap[identity]? = some (.list values) → List.Forall₂ (Stored heap) values items →
      Stored heap (.container identity) (.list items)
  | dict {identity : Nat} {values : List (PyValue × PyValue)} {entries : JsonObject} :
      heap[identity]? = some (.dict values) →
      values.map Prod.fst = entries.map (fun entry => .str entry.1) →
      List.Forall₂ (Stored heap) (values.map Prod.snd) (entries.map Prod.snd) →
      Stored heap (.container identity) (.dict entries)

mutual

theorem store_stored : ∀ (value : JsonValue) (heap : PyHeap),
    ∃ made, (store value heap).2 = heap ++ made ∧
      ∀ more, Stored (heap ++ made ++ more) (store value heap).1 value
  | .null, heap => ⟨[], (List.append_nil heap).symm, fun _ => .null⟩
  | .bool value, heap => ⟨[], (List.append_nil heap).symm, fun _ => .bool value⟩
  | .int value, heap => ⟨[], (List.append_nil heap).symm, fun _ => .int value⟩
  | .float bits, heap => ⟨[], (List.append_nil heap).symm, fun _ => .float bits⟩
  | .str value, heap => ⟨[], (List.append_nil heap).symm, fun _ => .str value⟩
  | .list items, heap => by
      obtain ⟨made, after, stored⟩ := storeItems_stored items heap
      rw [store, after]
      dsimp only
      refine ⟨made ++ [.list (storeItems items heap).1], by rw [List.append_assoc], fun more => ?_⟩
      have found : (heap ++ (made ++ [.list (storeItems items heap).1]) ++ more)[(heap ++ made).length]? =
          some (.list (storeItems items heap).1) := by
        simp
      have within := stored ([.list (storeItems items heap).1] ++ more)
      simp only [List.append_assoc] at within found ⊢
      exact .list found within
  | .dict entries, heap => by
      obtain ⟨made, after, keys, stored⟩ := storeEntries_stored entries heap
      rw [store, after]
      dsimp only
      refine ⟨made ++ [.dict (storeEntries entries heap).1], by rw [List.append_assoc], fun more => ?_⟩
      have found : (heap ++ (made ++ [.dict (storeEntries entries heap).1]) ++ more)[(heap ++ made).length]? =
          some (.dict (storeEntries entries heap).1) := by
        simp
      have within := stored ([.dict (storeEntries entries heap).1] ++ more)
      simp only [List.append_assoc] at within found ⊢
      exact .dict found keys within

theorem storeItems_stored : ∀ (items : List JsonValue) (heap : PyHeap),
    ∃ made, (storeItems items heap).2 = heap ++ made ∧
      ∀ more, List.Forall₂ (Stored (heap ++ made ++ more)) (storeItems items heap).1 items
  | [], heap => ⟨[], (List.append_nil heap).symm, fun _ => .nil⟩
  | item :: rest, heap => by
      obtain ⟨first, after, stored⟩ := store_stored item heap
      obtain ⟨others, behind, following⟩ := storeItems_stored rest (heap ++ first)
      rw [storeItems, after]
      dsimp only
      refine ⟨first ++ others, by rw [behind, List.append_assoc], fun more => .cons ?_ ?_⟩
      · have within := stored (others ++ more)
        simpa only [List.append_assoc] using within
      · have within := following more
        simpa only [List.append_assoc] using within

theorem storeEntries_stored : ∀ (entries : JsonObject) (heap : PyHeap),
    ∃ made, (storeEntries entries heap).2 = heap ++ made ∧
      (storeEntries entries heap).1.map Prod.fst = entries.map (fun entry => .str entry.1) ∧
      ∀ more, List.Forall₂ (Stored (heap ++ made ++ more))
        ((storeEntries entries heap).1.map Prod.snd) (entries.map Prod.snd)
  | [], heap => ⟨[], (List.append_nil heap).symm, rfl, fun _ => .nil⟩
  | (key, item) :: rest, heap => by
      obtain ⟨first, after, stored⟩ := store_stored item heap
      obtain ⟨others, behind, keys, following⟩ := storeEntries_stored rest (heap ++ first)
      rw [storeEntries, after]
      dsimp only
      refine ⟨first ++ others, by rw [behind, List.append_assoc], ?_, fun more => .cons ?_ ?_⟩
      · rw [List.map_cons, keys, List.map_cons]
      · have within := stored (others ++ more)
        simpa only [List.append_assoc] using within
      · have within := following more
        simpa only [List.append_assoc] using within

end

/-- What `componentAt` finds in the objects of the value. -/
def JsonValue.componentAt : JsonValue → PathComponent → Option JsonValue
  | .dict entries, .field name =>
      (entries.find? fun entry => decide (entry.1 = ⟨Str.ofString name⟩)).map Prod.snd
  | .list items, .index index => items[index]?
  | _, _ => none

/-- What stands at a path of a JSON value. -/
def JsonValue.valueAt (value : JsonValue) : FieldPath → Option JsonValue
  | [] => some value
  | component :: rest => (value.componentAt component).bind (JsonValue.valueAt · rest)

section

variable {heap : PyHeap} {value : PyValue} {tree : JsonValue}

theorem stored_lookup {values : List (PyValue × PyValue)} {entries : JsonObject}
    (keys : values.map Prod.fst = entries.map fun entry => .str entry.1)
    (held : List.Forall₂ (Stored heap) (values.map Prod.snd) (entries.map Prod.snd))
    (name : String) :
    Option.Rel (Stored heap) (lookup values name)
      ((entries.find? fun entry => decide (entry.1 = ⟨Str.ofString name⟩)).map Prod.snd) := by
  unfold lookup
  induction values generalizing entries with
  | nil =>
      cases entries with
      | nil => exact .none
      | cons entry rest => contradiction
  | cons first others ih =>
      cases entries with
      | nil => contradiction
      | cons entry rest =>
          simp only [List.map_cons, List.cons.injEq] at keys
          simp only [List.map_cons, List.forall₂_cons] at held
          by_cases named : entry.1 = ⟨Str.ofString name⟩
          · rw [List.find?_cons_of_pos (by simp [keys.1, named]),
              List.find?_cons_of_pos (by simp [named])]
            exact .some held.1
          · rw [List.find?_cons_of_neg (by simp [keys.1, named]),
              List.find?_cons_of_neg (by simp [named])]
            exact ih keys.2 held.2

theorem forall₂_getElem? {α β : Type} {relation : α → β → Prop} {left : List α} {right : List β}
    (related : List.Forall₂ relation left right) (index : Nat) :
    Option.Rel relation left[index]? right[index]? := by
  induction related generalizing index with
  | nil => exact .none
  | cons first _ ih =>
      cases index with
      | zero => exact .some first
      | succ index => simpa only [List.getElem?_cons_succ] using ih index

theorem Stored.componentAt (stored : Stored heap value tree) (component : PathComponent) :
    Option.Rel (Stored heap) (componentAt heap value component) (tree.componentAt component) := by
  cases stored with
  | @list identity values items found held =>
      cases component with
      | field name =>
          simp only [StreamDockSdk.componentAt, dictEntries?, found]
          exact .none
      | index index =>
          simp only [StreamDockSdk.componentAt, listItems?, found]
          exact forall₂_getElem? held index
  | @dict identity values entries found keys held =>
      cases component with
      | field name =>
          simp only [StreamDockSdk.componentAt, dictEntries?, found]
          exact stored_lookup keys held name
      | index index =>
          simp only [StreamDockSdk.componentAt, listItems?, found]
          exact .none
  | _ => cases component <;> exact .none

/-- The fields of the objects are those of the value. -/
theorem Stored.fieldAt (stored : Stored heap value tree) (path : FieldPath) :
    Option.Rel (Stored heap) (fieldAt heap value path) (tree.valueAt path) := by
  induction path generalizing value tree with
  | nil => exact .some stored
  | cons component rest ih =>
      unfold StreamDockSdk.fieldAt JsonValue.valueAt
      have first := stored.componentAt component
      generalize StreamDockSdk.componentAt heap value component = found at first
      generalize tree.componentAt component = within at first
      cases first with
      | none => exact .none
      | some stored => exact ih stored

theorem forall₂_agree {α β : Type} {first second : α → β → Prop} {inputs : List α}
    {outputs others : List β} (related : List.Forall₂ first inputs outputs)
    (again : List.Forall₂ second inputs others)
    (agree : ∀ input output other, first input output → second input other → output = other) :
    outputs = others := by
  induction related generalizing others with
  | nil =>
      cases again
      rfl
  | cons head _ ih =>
      cases again with
      | cons other rest => rw [agree _ _ _ head other, ih rest]

theorem stored_entries {values : List (PyValue × PyValue)} {entries : JsonObject}
    (keys : values.map Prod.fst = entries.map fun entry => .str entry.1)
    (held : List.Forall₂ (Stored heap) (values.map Prod.snd) (entries.map Prod.snd)) :
    List.Forall₂ (fun value entry => value.1 = .str entry.1 ∧ Stored heap value.2 entry.2)
      values entries := by
  induction values generalizing entries with
  | nil =>
      cases entries with
      | nil => exact .nil
      | cons entry rest => contradiction
  | cons first others ih =>
      cases entries with
      | nil => contradiction
      | cons entry rest =>
          simp only [List.map_cons, List.cons.injEq] at keys
          simp only [List.map_cons, List.forall₂_cons] at held
          exact .cons ⟨keys.1, held.1⟩ (ih keys.2 held.2)

/-- What objects denote is the value they were made for. -/
theorem Stored.denotes {depth : Nat} {other : JsonValue} (stored : Stored heap value tree)
    (denotes : DenotesJson heap depth value other) : other = tree := by
  induction depth generalizing value tree other with
  | zero =>
      cases stored <;> simp_all [DenotesJson, jsonScalar?]
  | succ depth ih =>
      cases stored with
      | @list identity values items found held =>
          rcases denotes with ⟨others, trees, there, rfl, related⟩ | ⟨_, _, there, _⟩
          · rw [found] at there
            cases there
            rw [forall₂_agree related held fun _ _ _ denotes stored => ih stored denotes]
          · rw [found] at there
            cases there
      | @dict identity values entries found keys held =>
          rcases denotes with ⟨_, _, there, _⟩ | ⟨others, fields, there, rfl, related⟩
          · rw [found] at there
            cases there
          · rw [found] at there
            cases there
            rw [forall₂_agree related (stored_entries keys held)]
            intro entry field other denotes stored
            have key := PyValue.str.inj (denotes.1.symm.trans stored.1)
            exact Prod.ext key (ih stored.2 denotes.2)
      | _ => simp_all [DenotesJson, jsonScalar?]

theorem DenotesJson.finite {depth : Nat} (denotes : DenotesJson heap depth value tree)
    {bits : BitVec 64} (member : .float bits ∈ tree.scalars) : isFinite bits = true := by
  have valid := isJsonValueWithin_iff.mpr ⟨tree, denotes⟩
  obtain ⟨cloned, ok⟩ := (clone_isOk (enclosed_nil value)).mpr valid
  rw [denotes.unique (cloneJsonValue_denotes ok)] at member
  exact ((clone_scalars ok _).mpr member).finite depth valid

end

section

variable {maxStrDigits depth : Nat} {tree within : JsonValue}

theorem Decoded.componentAt (decoded : Decoded maxStrDigits depth tree) {component : PathComponent}
    (found : tree.componentAt component = some within) : Decoded maxStrDigits depth within := by
  obtain ⟨formed, readable⟩ := decoded
  cases formed with
  | @list depth items each =>
      cases component with
      | field name => contradiction
      | index index =>
          have member := List.mem_of_getElem? found
          refine ⟨(each within member).mono (Nat.le_succ depth), fun scalar inside => ?_⟩
          refine readable scalar ?_
          rw [JsonValue.scalars, scalarsOfItems_eq, List.mem_flatMap]
          exact ⟨within, member, inside⟩
  | @dict depth entries distinct each =>
      cases component with
      | field name =>
          obtain ⟨entry, first, rfl⟩ := Option.map_eq_some_iff.mp found
          have member := List.mem_of_find?_eq_some first
          refine ⟨(each entry member).mono (Nat.le_succ depth), fun scalar inside => ?_⟩
          refine readable scalar ?_
          rw [JsonValue.scalars, scalarsOfEntries_eq, List.mem_flatMap]
          exact ⟨entry, member, List.mem_cons_of_mem _ inside⟩
      | index index => contradiction
  | _ => cases component <;> contradiction

theorem Decoded.valueAt (decoded : Decoded maxStrDigits depth tree) {path : FieldPath}
    (found : tree.valueAt path = some within) : Decoded maxStrDigits depth within := by
  induction path generalizing tree with
  | nil =>
      cases found
      exact decoded
  | cons component rest ih =>
      obtain ⟨value, first, found⟩ := Option.bind_eq_some_iff.mp found
      exact ih (decoded.componentAt first) found

end

/-- A dictionary has each of its keys once. -/
def Keyed (heap : PyHeap) : Prop :=
  ∀ entries, PyContainer.dict entries ∈ heap → (entries.map Prod.fst).Nodup

section

variable {heap : PyHeap} {remaining : Nat} {value : PyValue} {cloned : JsonValue}

theorem jsonScalar_formed {depth : Nat} (scalar : jsonScalar? value = some cloned) :
    WellFormed depth cloned := by
  cases value with
  | none =>
      cases scalar
      exact .null
  | bool value =>
      cases scalar
      exact .bool value
  | int value =>
      cases scalar
      exact .int value
  | float bits =>
      simp only [jsonScalar?, Option.ite_none_right_eq_some, Option.some.injEq] at scalar
      exact scalar.2 ▸ .float bits
  | str value =>
      cases scalar
      exact .str value
  | _ => cases scalar

theorem forall₂_right {α β : Type} {relation : α → β → Prop} {holds : β → Prop}
    {left : List α} {right : List β} (related : List.Forall₂ relation left right)
    (each : ∀ a b, relation a b → holds b) : ∀ b ∈ right, holds b := by
  induction related with
  | nil => exact List.forall_mem_nil _
  | cons first _ ih => exact List.forall_mem_cons.mpr ⟨each _ _ first, ih⟩

/-- What a value denotes is well-formed. -/
theorem DenotesJson.formed {depth : Nat} (keyed : Keyed heap)
    (denotes : DenotesJson heap depth value cloned) : WellFormed depth cloned := by
  induction depth generalizing value cloned with
  | zero => exact jsonScalar_formed denotes
  | succ depth ih =>
      by_cases flat : ∀ identity, value ≠ .container identity
      · exact jsonScalar_formed ((denotesJson_scalar flat).mp denotes)
      push Not at flat
      obtain ⟨identity, rfl⟩ := flat
      rcases denotes with ⟨items, trees, _, rfl, related⟩ | ⟨entries, fields, found, rfl, related⟩
      · exact .list (forall₂_right related fun _ _ => ih)
      · refine .dict ?_ (forall₂_right related fun _ _ field => ih field.2)
        have keys : entries.map Prod.fst = fields.map fun field => PyValue.str field.1 := by
          clear found
          induction related with
          | nil => rfl
          | cons first _ same => rw [List.map_cons, List.map_cons, first.1, same]
        have distinct := keyed entries (List.mem_of_getElem? found)
        rw [keys] at distinct
        refine List.Nodup.of_map PyValue.str ?_
        rw [List.map_map]
        exact distinct

end

end StreamDockSdk
