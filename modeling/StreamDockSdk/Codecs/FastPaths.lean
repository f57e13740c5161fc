import StreamDockSdk.Codecs

namespace StreamDockSdk.Codecs

variable {heap built : PyHeap} {value cloned : PyValue} {entries : JsonObject}

/-- None of so many containers belongs to the value. -/
structure Unshared (existing : Nat) (heap : PyHeap) (value : PyValue) : Prop where
  fresh : ∀ identity ∈ containersWithin heap maxJsonDepth value, existing ≤ identity
  shallow : ∀ identity, ¬LiesAt heap maxJsonDepth value (.container identity)

/-- The dictionary denotes the JSON object. -/
def Denotes (heap : PyHeap) (value : PyValue) (entries : JsonObject) : Prop :=
  DenotesJson heap maxJsonDepth value (.dict entries)

theorem Denotes.container (denotes : Denotes heap value entries) :
    ∃ identity held, value = .container identity ∧ heap[identity]? = some (.dict held) ∧
      List.Forall₂ (fun entry field =>
        entry.1 = .str field.1 ∧ DenotesJson heap 63 entry.2 field.2) held entries := by
  cases value with
  | container identity =>
      rcases denotes with ⟨items, trees, _, same, _⟩ | ⟨held, fields, found, same, related⟩
      · cases same
      · cases same
        exact ⟨identity, held, rfl, found, related⟩
  | float bits =>
      have scalar : jsonScalar? (.float bits) = some (.dict entries) := denotes
      simp only [jsonScalar?] at scalar
      split at scalar <;> cases scalar
  | _ => cases (show jsonScalar? _ = some (JsonValue.dict entries) from denotes)

theorem Denotes.isDict (denotes : Denotes heap value entries) : isDict heap value = true := by
  obtain ⟨identity, held, rfl, found, _⟩ := denotes.container
  simp [StreamDockSdk.isDict, found]

/-- What `clone_json_object` accepts is what denotes a JSON object. -/
theorem cloneJsonObject_iff :
    cloneJsonObject heap value = .ok entries ↔ Denotes heap value entries := by
  constructor
  · exact fun ok => cloneJsonValue_denotes (cloneJsonObject_eq_ok ok)
  · intro denotes
    obtain ⟨others, ok⟩ := cloneJsonObject_isOk.mpr
      ⟨denotes.isDict, isJsonValueWithin_iff.mpr ⟨_, denotes⟩⟩
    have again := cloneJsonValue_denotes (cloneJsonObject_eq_ok ok)
    cases DenotesJson.unique denotes again
    exact ok

theorem denotesJson_within {depth : Nat} {tree : JsonValue}
    (denotes : DenotesJson heap depth value tree) :
    ∀ identity ∈ containersWithin heap depth value, identity < heap.length := by
  induction depth generalizing value tree with
  | zero => exact nofun
  | succ depth ih =>
      cases value with
      | container identity =>
          have inner {held : PyContainer} (found : heap[identity]? = some held)
              (each : ∀ item ∈ held.children, ∃ tree, DenotesJson heap depth item tree) :
              ∀ place ∈ containersWithin heap (depth + 1) (.container identity),
                place < heap.length := by
            intro place member
            rcases List.mem_cons.mp member with rfl | nested
            · exact (List.getElem?_eq_some_iff.mp found).1
            · rw [found] at nested
              obtain ⟨item, listed, within⟩ := List.mem_flatMap.mp nested
              obtain ⟨tree, denotes⟩ := each item listed
              exact ih denotes place within
          rcases denotes with ⟨items, trees, found, _, related⟩ | ⟨held, fields, found, _, related⟩
          · exact inner found (forall₂_of_forall.mp ⟨trees, related⟩)
          · refine inner found fun item listed => ?_
            obtain ⟨entry, member, rfl⟩ := List.mem_map.mp listed
            obtain ⟨field, _, denotes⟩ := forall₂_of_forall.mp ⟨fields, related⟩ entry member
            exact ⟨field.2, denotes⟩
      | _ => exact nofun

theorem cloneJsonObjectInto_ok (ok : cloneJsonObjectInto heap value = .ok (cloned, built)) :
    ∃ entries, Denotes heap value entries ∧ Denotes (heap ++ built) cloned entries ∧
      Unshared heap.length (heap ++ built) cloned := by
  unfold cloneJsonObjectInto at ok
  split at ok
  · cases ok
  · next dict =>
    have clone := cloneJsonValueInto_cloned ok
    have valid := cloneJsonValueInto_isOk.mpr ⟨cloned, built, ok⟩
    obtain ⟨entries, accepted⟩ := cloneJsonObject_isOk.mpr
      ⟨by simpa using dict, valid⟩
    have original := cloneJsonObject_iff.mp accepted
    obtain ⟨tree, first, second⟩ := clone.equal
    cases DenotesJson.unique first original
    exact ⟨entries, original, second, clone.fresh, clone.shallow⟩

theorem cloneJsonObjectInto_of_denotes (denotes : Denotes heap value entries) :
    ∃ cloned built, cloneJsonObjectInto heap value = .ok (cloned, built) := by
  obtain ⟨cloned, built, ok⟩ := cloneJsonValueInto_isOk.mp (isJsonValueWithin_iff.mpr ⟨_, denotes⟩)
  refine ⟨cloned, built, ?_⟩
  rw [cloneJsonObjectInto, denotes.isDict]
  exact ok

namespace Located

variable {located copy : Located}

/-- The object is the JSON object. -/
def Holds (located : Located) (entries : JsonObject) : Prop :=
  ∃ value, located.object = .value value ∧ Denotes located.heap value entries

/-- The object has none of so many containers. -/
def Apart (located : Located) (existing : Nat) : Prop :=
  ∃ value, located.object = .value value ∧ Unshared existing located.heap value

theorem content_iff : located.content = some entries ↔ located.Holds entries := by
  unfold content Holds
  cases located.object with
  | raising raised => exact ⟨nofun, fun ⟨_, same, _⟩ => nomatch same⟩
  | value value =>
      constructor
      · intro found
        cases accepted : cloneJsonObject located.heap value with
        | error error => simp [accepted, Except.toOption] at found
        | ok others =>
            simp only [accepted, Except.toOption, Option.some.injEq] at found
            exact ⟨value, rfl, cloneJsonObject_iff.mp (found ▸ accepted)⟩
      · rintro ⟨_, same, denotes⟩
        cases same
        simp [cloneJsonObject_iff.mpr denotes, Except.toOption]

theorem clone_ok (ok : located.clone = .ok copy) :
    (∃ entries, located.Holds entries ∧ copy.Holds entries) ∧ copy.Apart located.heap.length ∧
      located.heap.length ≤ copy.heap.length := by
  unfold clone at ok
  split at ok
  · cases ok
  · next value found =>
    split at ok
    · cases ok
    · next cloned built cloning =>
      cases ok
      obtain ⟨entries, original, copied, unshared⟩ := cloneJsonObjectInto_ok cloning
      refine ⟨⟨entries, ⟨value, found, original⟩, ⟨cloned, rfl, copied⟩⟩, ⟨cloned, rfl, unshared⟩, ?_⟩
      simp

theorem clone_of_holds (holds : located.Holds entries) : ∃ copy, located.clone = .ok copy := by
  obtain ⟨value, found, denotes⟩ := holds
  obtain ⟨cloned, built, ok⟩ := cloneJsonObjectInto_of_denotes denotes
  exact ⟨{ heap := located.heap ++ built, object := .value cloned }, by simp only [clone, found, ok]⟩

/-- A clone raises what its object raises, or an error of its own. -/
theorem clone_error {raised : PyException} (failed : located.clone = .error raised) :
    located.object = .raising raised ∨
      ∃ value error, located.object = .value value ∧ raised = jsonException error := by
  unfold clone at failed
  split at failed
  · next found =>
    cases failed
    exact .inl found
  · next value found =>
    split at failed
    · next error _ =>
      cases failed
      exact .inr ⟨value, error, found, rfl⟩
    · cases failed

end Located

/-- How exceptions are told apart: by their types at least. -/
structure Likeness where
  alike : PyException → PyException → Prop
  refl : ∀ raised, alike raised raised
  kind : ∀ {first second}, alike first second → first.kind = second.kind

namespace Likeness

variable {like : Likeness} {direction : Direction} {raised instead : PyException}

/-- Exceptions of one type. -/
def sameType : Likeness where
  alike first second := first.kind = second.kind ∧ first.className = second.className
  refl _ := ⟨rfl, rfl⟩
  kind same := same.1

/-- A handler makes another exception of it. -/
def Changes (like : Likeness) (raised : PyException) : Prop :=
  raised.isHandled = true ∧ ∀ last, raised.str = .error last → ¬like.alike last raised

/-- What a handler raises because it cannot print the exception is changed by another one. -/
def Retold (like : Likeness) (raised : PyException) : Prop :=
  raised.isHandled = true ∧ ∃ instead, raised.str = .error instead ∧ like.Changes instead

/-- What leaves `_copy_json_object` is changed by a handler. -/
def Recopied (like : Likeness) (raised : PyException) : Prop :=
  raised.kind = .typeError ∧ like.Changes raised ∨
    raised.kind = .depthError ∧ ∃ instead, raised.str = .error instead ∧ like.Changes instead

theorem isHandled_eq : raised.isHandled = true ↔
    raised.kind = .typeError ∨ raised.kind = .depthError ∨ raised.kind = .valueError := by
  cases kind : raised.kind <;>
    simp [PyException.isHandled, PyException.isCodecError, PyException.isValueError, kind]

theorem error_not_handled (reason : Str) : (direction.error reason).isHandled = false := by
  cases direction <;> rfl

theorem error_kind_ne (handled : raised.isHandled = true) (reason : Str) :
    (direction.error reason).kind ≠ raised.kind := by
  intro same
  rw [isHandled_eq, ← same] at handled
  cases direction <;> simp [Direction.error, PyException.kind] at handled

theorem not_changes_error (reason : Str) : ¬like.Changes (direction.error reason) :=
  fun changes => Bool.false_ne_true ((error_not_handled reason).symm.trans changes.1)

theorem alike_translate_iff :
    like.alike (direction.translate raised) raised ↔ ¬like.Changes raised := by
  unfold Direction.translate Changes PyException.reason
  by_cases handled : raised.isHandled = true
  · rw [if_pos handled]
    cases shown : raised.str with
    | ok text =>
        refine ⟨fun alike => absurd (like.kind alike) (error_kind_ne handled _), fun unchanged => ?_⟩
        exact absurd ⟨handled, nofun⟩ unchanged
    | error last =>
        constructor
        · exact fun alike changes => changes.2 last rfl alike
        · intro unchanged
          by_contra differs
          refine unchanged ⟨handled, fun other same => ?_⟩
          cases same
          exact differs
  · rw [if_neg handled]
    exact ⟨fun _ changes => handled changes.1, fun _ => like.refl raised⟩

theorem changes_translate_iff : like.Changes (direction.translate raised) ↔ like.Retold raised := by
  unfold Direction.translate Retold PyException.reason
  by_cases handled : raised.isHandled = true
  · rw [if_pos handled]
    cases shown : raised.str with
    | ok text => exact ⟨fun changes => absurd changes (not_changes_error _), nofun⟩
    | error instead =>
        refine ⟨fun changes => ⟨handled, instead, rfl, changes⟩, ?_⟩
        rintro ⟨_, other, same, changes⟩
        cases same
        exact changes
  · rw [if_neg handled]
    exact ⟨fun changes => absurd changes.1 handled, fun retold => absurd retold.1 handled⟩

theorem changes_refuse_iff : like.Changes (direction.refuse raised) ↔ like.Recopied raised := by
  unfold Direction.refuse Recopied
  by_cases deep : raised.kind = .depthError
  · rw [if_pos deep]
    have other : ¬raised.kind = .typeError := by rw [deep]; decide
    simp only [deep, reduceCtorEq, false_and, true_and, false_or]
    cases shown : raised.str with
    | ok text => exact ⟨fun changes => absurd changes (not_changes_error _), nofun⟩
    | error instead =>
        refine ⟨fun changes => ⟨instead, rfl, changes⟩, ?_⟩
        rintro ⟨other, same, changes⟩
        cases same
        exact changes
  · rw [if_neg deep]
    simp only [deep, false_and, or_false]
    by_cases invalid : raised.isValueError = true
    · rw [if_pos invalid]
      refine ⟨fun changes => absurd changes (not_changes_error _), fun typed => ?_⟩
      simp [PyException.isValueError, typed.1] at invalid
    · rw [if_neg invalid]
      refine ⟨fun changes => ⟨?_, changes⟩, And.right⟩
      rcases isHandled_eq.mp changes.1 with typed | depth | value
      · exact typed
      · exact absurd depth deep
      · simp [PyException.isValueError, value] at invalid

end Likeness

section Encoding

variable {T : Type} [PluginValue T] {codec : JsonCodec T} {value : T}
variable {encoded source payload : Located} {entries : JsonObject} {existing : Nat}
variable {like : Likeness}

/-- A payload is a JSON object like its source, with containers of its own. -/
theorem ownedJsonPayload_of_holds (holds : source.Holds entries)
    (later : existing ≤ source.heap.length) :
    ∃ payload, JsonCodec.ownedJsonPayload source = .ok payload ∧ payload.Holds entries ∧
      payload.Apart existing := by
  obtain ⟨copy, cloned⟩ := Located.clone_of_holds holds
  obtain ⟨⟨others, first, second⟩, ⟨object, found, unshared⟩, longer⟩ := Located.clone_ok cloned
  have same := (Located.content_iff.mpr first).symm.trans (Located.content_iff.mpr holds)
  cases same
  obtain ⟨_, again, denotes⟩ := second
  cases found.symm.trans again
  obtain ⟨identity, held, rfl, root, related⟩ := denotes.container
  have place : (copy.heap ++ [PyContainer.dict held])[copy.heap.length]? = some (.dict held) := by
    rw [List.getElem?_append_right (Nat.le_refl _), Nat.sub_self]
    rfl
  have entry (item : PyValue × PyValue) (member : item ∈ held) :
      ∃ tree, DenotesJson copy.heap 63 item.2 tree := by
    obtain ⟨field, _, denotes⟩ := forall₂_of_forall.mp ⟨entries, related⟩ item member
    exact ⟨field.2, denotes⟩
  have kept {item : PyValue × PyValue} (member : item ∈ held) :
      ∀ within ∈ containersWithin copy.heap 63 item.2,
        (copy.heap ++ [PyContainer.dict held])[within]? = copy.heap[within]? := by
    obtain ⟨tree, denotes⟩ := entry item member
    exact fun within listed => List.getElem?_append_left (denotesJson_within denotes within listed)
  have whole : Denotes (copy.heap ++ [.dict held]) (.container copy.heap.length) entries := by
    refine .inr ⟨held, entries, place, rfl, ?_⟩
    exact forall₂_imp_mem related fun item member field denotes =>
      ⟨denotes.1, denotes.2.frame (kept member)⟩
  refine ⟨{ heap := copy.heap ++ [.dict held], object := .value (.container copy.heap.length) },
    ?_, ⟨_, rfl, whole⟩, ⟨_, rfl, ⟨?_, whole.shallow⟩⟩⟩
  · simp only [JsonCodec.ownedJsonPayload, cloned, found, dictEntries?, root, Option.getD_some]
  · intro nestedPlace member
    rcases List.mem_cons.mp member with rfl | nested
    · exact Nat.le_trans later longer
    · rw [place] at nested
      obtain ⟨item, listed, within⟩ := List.mem_flatMap.mp nested
      obtain ⟨entry, inside, rfl⟩ := List.mem_map.mp listed
      rw [containersWithin_frame (kept inside)] at within
      refine Nat.le_trans later (unshared.fresh nestedPlace (List.mem_cons_of_mem _ ?_))
      rw [root]
      exact List.mem_flatMap.mpr ⟨entry.2, List.mem_map_of_mem inside, within⟩

/-- Equal JSON objects, or exceptions that are alike. -/
inductive EncodesAlike (like : Likeness) :
    Except PyException Located → Except PyException Located → Prop
  | encoded {plain fast : Located} {entries : JsonObject} (first : plain.Holds entries)
      (second : fast.Holds entries) : EncodesAlike like (.ok plain) (.ok fast)
  | raised {plain fast : PyException} (alike : like.alike plain fast) :
      EncodesAlike like (.error plain) (.error fast)

theorem encodesAlike_error {first second : PyException} :
    EncodesAlike like (.error first) (.error second) ↔ like.alike first second :=
  ⟨fun alike => by cases alike; assumption, .raised⟩

/-- The handlers of the plain way that the other way lacks make another exception of what is
raised: by the encoder of a `FunctionalJsonCodec`, or by an object that a codec of the SDK
copies. -/
def JsonCodec.EncodingChanges (codec : JsonCodec T) (like : Likeness) (value : T) : Prop :=
  (codec.isFunctional = true ∧ ∃ raised, codec.encoderReturns value = .error raised ∧
    like.Retold raised) ∨
  (codec.builtIn = true ∧ ∃ encoded raised, codec.encoderReturns value = .ok encoded ∧
    encoded.object = .raising raised ∧ like.Recopied raised)

theorem encodeWithCodec_eq :
    codec.encodeWithCodec value =
      match codec.encoderReturns value with
      | .error raised => .error (
          if codec.isFunctional then
            Direction.encoding.translate (Direction.encoding.translate raised)
          else Direction.encoding.translate raised)
      | .ok encoded => encoded.clone.mapError fun raised =>
          if codec.builtIn then Direction.encoding.translate (Direction.encoding.refuse raised)
          else Direction.encoding.refuse raised := by
  unfold JsonCodec.encodeWithCodec
  cases codec with
  | functional decoder encoder =>
      simp only [JsonCodec.encode, JsonCodec.encoderReturns, JsonCodec.builtIn,
        JsonCodec.isFunctional, if_true]
      cases encoder value with
      | error raised => rfl
      | ok encoded =>
          simp only [Except.mapError, Located.copyJsonObject]
          cases encoded.clone <;> rfl
  | jsonObject =>
      simp only [JsonCodec.encode, JsonCodec.encoderReturns, JsonCodec.builtIn, if_true,
        Located.copyJsonObject]
      cases (asObject value).clone <;> rfl
  | custom decode encode =>
      simp only [JsonCodec.encode, JsonCodec.encoderReturns, JsonCodec.builtIn,
        JsonCodec.isFunctional, Bool.false_eq_true, if_false]
      cases encode value <;> rfl

/-- The encoded object is a JSON object of its own. -/
theorem encodeWithCodec_apart (returns : codec.encoderReturns value = .ok encoded)
    {result : Located} (ok : codec.encodeWithCodec value = .ok result) :
    result.Apart encoded.heap.length := by
  rw [encodeWithCodec_eq, returns] at ok
  simp only [Except.mapError] at ok
  cases cloned : encoded.clone with
  | error raised => simp [cloned] at ok
  | ok copy =>
      simp only [cloned, Except.ok.injEq] at ok
      exact ok ▸ (Located.clone_ok cloned).2.1

theorem encodeWithCodecPayload_apart (returns : codec.encoderReturns value = .ok encoded)
    {result : Located} (ok : codec.encodeWithCodecPayload value = .ok result) :
    result.Apart encoded.heap.length := by
  simp only [JsonCodec.encodeWithCodecPayload, JsonCodec.encodeWithCodecSource, returns,
    Except.mapError] at ok
  cases cloned : encoded.clone with
  | error raised => simp [cloned] at ok
  | ok copy =>
      obtain ⟨⟨entries, _, holds⟩, _, longer⟩ := Located.clone_ok cloned
      obtain ⟨payload, owned, _, apart⟩ := ownedJsonPayload_of_holds holds longer
      simp only [cloned, owned, Except.ok.injEq] at ok
      exact ok ▸ apart

theorem not_recopied_json (error : JsonError) : ¬like.Recopied (jsonException error) := by
  rintro (typed | ⟨_, instead, shown, _⟩)
  · cases error <;> exact absurd typed.1 nofun
  · cases error <;> cases shown

theorem encodes_alike_iff :
    EncodesAlike like (codec.encodeWithCodec value) (codec.encodeWithCodecPayload value) ↔
      ¬codec.EncodingChanges like value := by
  rw [encodeWithCodec_eq]
  unfold JsonCodec.encodeWithCodecPayload JsonCodec.encodeWithCodecSource JsonCodec.EncodingChanges
  cases returns : codec.encoderReturns value with
  | error raised =>
      have same : like.alike (if codec.isFunctional then
            Direction.encoding.translate (Direction.encoding.translate raised)
          else Direction.encoding.translate raised) (Direction.encoding.translate raised) ↔
          ¬(codec.isFunctional = true ∧ like.Retold raised) := by
        by_cases functional : codec.isFunctional = true
        · rw [if_pos functional, like.alike_translate_iff, like.changes_translate_iff]
          simp [functional]
        · rw [if_neg functional]
          exact ⟨fun _ both => functional both.1, fun _ => like.refl _⟩
      simp only [Except.mapError, encodesAlike_error, same, Except.error.injEq, reduceCtorEq,
        false_and, exists_false, and_false, or_false, exists_eq_left']
  | ok encoded =>
      simp only [Except.mapError, reduceCtorEq, false_and, exists_false, and_false, false_or,
        Except.ok.injEq, exists_and_left, exists_eq_left']
      cases cloned : encoded.clone with
      | ok copy =>
          obtain ⟨⟨entries, ⟨content, found, _⟩, holds⟩, _, _⟩ := Located.clone_ok cloned
          obtain ⟨payload, owned, again, _⟩ := ownedJsonPayload_of_holds holds (Nat.le_refl _)
          simp only [owned, found, reduceCtorEq, false_and, exists_false, and_false,
            not_false_eq_true, iff_true]
          exact .encoded holds again
      | error raised =>
          have same : like.alike (if codec.builtIn then
                Direction.encoding.translate (Direction.encoding.refuse raised)
              else Direction.encoding.refuse raised) (Direction.encoding.refuse raised) ↔
              ¬(codec.builtIn = true ∧ like.Recopied raised) := by
            by_cases builtIn : codec.builtIn = true
            · rw [if_pos builtIn, like.alike_translate_iff, like.changes_refuse_iff]
              simp [builtIn]
            · rw [if_neg builtIn]
              exact ⟨fun _ both => builtIn both.1, fun _ => like.refl _⟩
          simp only [encodesAlike_error, same]
          rcases Located.clone_error cloned with raising | ⟨content, error, found, rfl⟩
          · simp only [raising, JsonInput.raising.injEq, exists_eq_left']
          · simp only [found, reduceCtorEq, false_and, exists_false, and_false, not_false_eq_true,
              iff_true]
            exact fun both => not_recopied_json error both.2

end Encoding

section Decoding

variable {T D : Type} {codec : JsonCodec T} {settings isolated : Located}
variable {entries : JsonObject} {like : Likeness}

/-- What the decoder of a codec makes of a JSON object; `none` is the object. -/
def JsonCodec.makes (codec : JsonCodec T) (entries : JsonObject) : Except PyException (Option T) :=
  match codec with
  | .functional decoder _ => (decoder entries).map some
  | .jsonObject => .ok none
  | .custom decode _ => (decode entries).map some

theorem Located.Holds.unique {located : Located} {others : JsonObject}
    (first : located.Holds entries) (second : located.Holds others) : entries = others :=
  Option.some.inj ((Located.content_iff.mpr first).symm.trans (Located.content_iff.mpr second))

theorem Located.copy_of_holds (holds : settings.Holds entries) (direction : Direction) :
    ∃ copy, settings.copyJsonObject direction = .ok copy ∧ copy.Holds entries ∧
      copy.Apart settings.heap.length := by
  obtain ⟨copy, cloned⟩ := Located.clone_of_holds holds
  obtain ⟨⟨others, first, second⟩, apart, _⟩ := Located.clone_ok cloned
  cases holds.unique first
  exact ⟨copy, by rw [Located.copyJsonObject, cloned]; rfl, second, apart⟩


/-- What a way of decoding comes to for a JSON object, by what the decoder makes of it and by
what the handlers make of an exception. -/
inductive ComesTo (entries : JsonObject) (handlers : PyException → PyException) :
    Except PyException (Option T) → Except PyException (Decoded T) → Prop
  | typed (value : T) : ComesTo entries handlers (.ok (some value)) (.ok (.typed value))
  | object {located : Located} (holds : located.Holds entries) :
      ComesTo entries handlers (.ok none) (.ok (.object located))
  | raised (exception : PyException) :
      ComesTo entries handlers (.error exception) (.error (handlers exception))

/-- The handlers of `decode_with_codec`, and those of the codec's own `decode` before them. -/
def JsonCodec.handlers (codec : JsonCodec T) (raised : PyException) : PyException :=
  if codec.isFunctional then Direction.decoding.translate (Direction.decoding.translate raised)
  else Direction.decoding.translate raised

theorem decodeWithCodec_comesTo (holds : settings.Holds entries) :
    ComesTo entries codec.handlers (codec.makes entries) (codec.decodeWithCodec settings).result := by
  obtain ⟨copy, copies, denotes, _⟩ := Located.copy_of_holds holds .decoding
  have content := Located.content_iff.mpr denotes
  cases codec with
  | functional decoder encoder =>
      simp only [JsonCodec.decodeWithCodec, JsonCodec.builtIn, if_true, JsonCodec.decode, copies,
        Decoding.translate, JsonCodec.hand, content, JsonCodec.makes, Option.getD_some]
      cases decoder entries with
      | ok value => exact .typed value
      | error raised => exact .raised raised
  | jsonObject =>
      simp only [JsonCodec.decodeWithCodec, JsonCodec.builtIn, if_true, JsonCodec.decode, copies,
        Decoding.translate]
      exact .object denotes
  | custom decode encode =>
      simp only [JsonCodec.decodeWithCodec, JsonCodec.builtIn, Bool.false_eq_true, if_false,
        JsonCodec.decode, copies, Decoding.translate, JsonCodec.hand, content, JsonCodec.makes,
        Option.getD_some]
      cases decode entries with
      | ok value => exact .typed value
      | error raised => exact .raised raised

theorem decodeIsolatedWithCodec_comesTo (holds : isolated.Holds entries) :
    ComesTo entries Direction.decoding.translate (codec.makes entries)
      (codec.decodeIsolatedWithCodec isolated).result := by
  have content := Located.content_iff.mpr holds
  cases codec with
  | functional decoder encoder =>
      simp only [JsonCodec.decodeIsolatedWithCodec, Decoding.translate, JsonCodec.hand, content,
        JsonCodec.makes, Option.getD_some]
      cases decoder entries with
      | ok value => exact .typed value
      | error raised => exact .raised raised
  | jsonObject => exact .object holds
  | custom decode encode =>
      simp only [JsonCodec.decodeIsolatedWithCodec, Decoding.translate, JsonCodec.hand, content,
        JsonCodec.makes, Option.getD_some]
      cases decode entries with
      | ok value => exact .typed value
      | error raised => exact .raised raised

/-- The plugin gets an object with containers of its own. -/
theorem decodeWithCodec_apart {located handed : Located}
    (gets : (codec.decodeWithCodec located).handed = some handed) :
    handed.Apart located.heap.length := by
  cases copies : located.copyJsonObject .decoding with
  | error raised =>
      cases codec <;> simp [JsonCodec.decodeWithCodec, JsonCodec.builtIn, JsonCodec.decode, copies,
        Decoding.translate] at gets
  | ok copy =>
      have same : copy = handed := by
        cases codec <;> simpa [JsonCodec.decodeWithCodec, JsonCodec.builtIn, JsonCodec.decode, copies,
          Decoding.translate, JsonCodec.hand] using gets
      unfold Located.copyJsonObject at copies
      cases cloned : located.clone with
      | error raised => simp [cloned, Except.mapError] at copies
      | ok other =>
          simp only [cloned, Except.mapError, Except.ok.injEq] at copies
          rw [← same, ← copies]
          exact (Located.clone_ok cloned).2.1

variable [PluginValue T]

/-- The JSON object that a value of a plugin, or an object, is. -/
def Decoded.content : Decoded T → Option JsonObject
  | .typed value => (asObject value).content
  | .object located => located.content

/-- The same value, or equal JSON objects. -/
def Decoded.Alike (first second : Decoded T) : Prop :=
  (∃ value, first = .typed value ∧ second = .typed value) ∨
    ∃ entries, first.content = some entries ∧ second.content = some entries

/-- Results that are alike, or exceptions that are. -/
inductive DecodesAlike (like : Likeness) :
    Except PyException (Decoded T) → Except PyException (Decoded T) → Prop
  | decoded {first second : Decoded T} (alike : first.Alike second) :
      DecodesAlike like (.ok first) (.ok second)
  | raised {first second : PyException} (alike : like.alike first second) :
      DecodesAlike like (.error first) (.error second)

theorem decodesAlike_ok {first second : Decoded T} :
    DecodesAlike like (.ok first) (.ok second) ↔ first.Alike second :=
  ⟨fun alike => by cases alike; assumption, .decoded⟩

theorem decodesAlike_error {first second : PyException} :
    DecodesAlike (T := T) like (.error first) (.error second) ↔ like.alike first second :=
  ⟨fun alike => by cases alike; assumption, .raised⟩

/-- The JSON object that the result of a decoder is. -/
def madeContent (entries : JsonObject) : Option T → Option JsonObject
  | none => some entries
  | some value => (asObject value).content

/-- Decoders return the same value or equal JSON objects, or raise exceptions that are alike
behind the handlers. -/
def MakeAlike (like : Likeness) (entries : JsonObject) (first second : PyException → PyException) :
    Except PyException (Option T) → Except PyException (Option T) → Prop
  | .ok one, .ok two => one = two ∨
      ∃ others, madeContent entries one = some others ∧ madeContent entries two = some others
  | .error one, .error two => like.alike (first one) (second two)
  | _, _ => False

theorem decodesAlike_iff {first second : PyException → PyException}
    {one two : Except PyException (Option T)} {plain fast : Except PyException (Decoded T)}
    (comes : ComesTo entries first one plain) (goes : ComesTo entries second two fast) :
    DecodesAlike like plain fast ↔ MakeAlike like entries first second one two := by
  have content {located : Located} (holds : located.Holds entries) :
      (Decoded.object located : Decoded T).content = some entries := Located.content_iff.mpr holds
  cases comes with
  | typed value =>
      cases goes with
      | typed other =>
          simp [decodesAlike_ok, Decoded.Alike, MakeAlike, madeContent, Decoded.content, eq_comm]
      | object holds =>
          rw [decodesAlike_ok, Decoded.Alike, content holds]
          simp [MakeAlike, madeContent, Decoded.content]
      | raised exception => exact ⟨nofun, nofun⟩
  | object holds =>
      cases goes with
      | typed other =>
          rw [decodesAlike_ok, Decoded.Alike, content holds]
          simp [MakeAlike, madeContent, Decoded.content]
      | object again =>
          rw [decodesAlike_ok, Decoded.Alike, content holds, content again]
          simp [MakeAlike]
      | raised exception => exact ⟨nofun, nofun⟩
  | raised exception =>
      cases goes with
      | typed other => exact ⟨nofun, nofun⟩
      | object holds => exact ⟨nofun, nofun⟩
      | raised other => exact decodesAlike_error

/-- The handlers of `decode_with_codec` make another exception of what the handlers of the
`FunctionalJsonCodec` raise. -/
def JsonCodec.DecodingChanges (codec : JsonCodec T) (like : Likeness) (entries : JsonObject) :
    Prop :=
  codec.isFunctional = true ∧ ∃ raised, codec.makes entries = .error raised ∧ like.Retold raised

theorem makeAlike_self :
    MakeAlike like entries codec.handlers Direction.decoding.translate (codec.makes entries)
      (codec.makes entries) ↔ ¬codec.DecodingChanges like entries := by
  unfold JsonCodec.DecodingChanges JsonCodec.handlers
  cases codec.makes entries with
  | ok value => simp [MakeAlike]
  | error raised =>
      simp only [MakeAlike, Except.error.injEq, exists_eq_left']
      by_cases functional : codec.isFunctional = true
      · rw [if_pos functional, like.alike_translate_iff, like.changes_translate_iff]
        simp [functional]
      · rw [if_neg functional]
        exact ⟨fun _ both => functional both.1, fun _ => like.refl _⟩

/-- An isolated copy is decoded like the object that it is a copy of. -/
theorem decodes_alike_iff (holds : settings.Holds entries) (copied : isolated.Holds entries) :
    DecodesAlike like (codec.decodeWithCodec settings).result
        (codec.decodeIsolatedWithCodec isolated).result ↔
      ¬codec.DecodingChanges like entries :=
  (decodesAlike_iff (decodeWithCodec_comesTo holds)
    (decodeIsolatedWithCodec_comesTo copied)).trans makeAlike_self

/-- The same call of the constructor, up to the containers of the settings. -/
inductive CreatesAlike (like : Likeness) :
    Except PyException (Option (Creation T D)) → Except PyException (Option (Creation T D)) → Prop
  | unregistered : CreatesAlike like (.ok none) (.ok none)
  | created {first second : Decoded T} (action context : Str) (dependencies : D)
      (alike : first.Alike second) :
      CreatesAlike like (.ok (some { action, context, settings := first, dependencies }))
        (.ok (some { action, context, settings := second, dependencies }))
  | raised {first second : PyException} (alike : like.alike first second) :
      CreatesAlike like (.error first) (.error second)

theorem creates_alike_iff {first second : Except PyException (Decoded T)} {action context : Str}
    {dependencies : D} :
    CreatesAlike like
        (first.map fun settings => some ({ action, context, settings, dependencies } : Creation T D))
        (second.map fun settings => some { action, context, settings, dependencies }) ↔
      DecodesAlike like first second := by
  constructor
  · intro alike
    cases first with
    | error raised =>
        cases second with
        | error other =>
            cases alike with
            | raised alike => exact .raised alike
        | ok decoded => cases alike
    | ok decoded =>
        cases second with
        | error other => cases alike
        | ok other =>
            cases alike with
            | created _ _ _ alike => exact .decoded alike
  · rintro (alike | alike)
    · exact .created action context dependencies alike
    · exact .raised alike

/-- The codec of the class changes what it raises for the settings, or the class has taken the
decoder of another class, whose codec does not make the same of them. -/
def ActionType.CreationChanges (actionType : ActionType T) (like : Likeness)
    (entries : JsonObject) : Prop :=
  match actionType.decodeSettings with
  | .inherited => actionType.settingsCodec.DecodingChanges like entries
  | .borrowed other => ¬MakeAlike like entries other.handlers Direction.decoding.translate
      (other.makes entries) (actionType.settingsCodec.makes entries)
  | .overridden _ => False

theorem creates_alike {registry : ActionRegistry T} {action context : Str} {dependencies : D}
    (holds : settings.Holds entries) (copied : isolated.Holds entries) :
    CreatesAlike like (registry.create action context settings dependencies)
        (registry.createFromOwnedSettings action context isolated dependencies) ↔
      ∀ actionType, registry.find action = some actionType →
        ¬actionType.CreationChanges like entries := by
  unfold ActionRegistry.createFromOwnedSettings ActionRegistry.create ActionType.CreationChanges
  cases found : registry.find action with
  | none => exact ⟨fun _ => nofun, fun _ => .unregistered⟩
  | some actionType =>
      simp only [Option.some.injEq, forall_eq']
      cases decoder : actionType.decodeSettings with
      | inherited =>
          simp only [ActionType.isDefault, ActionType.decode, decoder, if_true, creates_alike_iff]
          exact decodes_alike_iff holds copied
      | borrowed codec =>
          simp only [ActionType.isDefault, ActionType.decode, decoder, if_true, creates_alike_iff,
            not_not]
          exact decodesAlike_iff (decodeWithCodec_comesTo holds)
            (decodeIsolatedWithCodec_comesTo copied)
      | overridden decode =>
          simp only [ActionType.isDefault, ActionType.decode, decoder, Bool.false_eq_true, if_false,
            creates_alike_iff, Located.content_iff.mpr holds, Located.content_iff.mpr copied,
            not_false_eq_true, iff_true]
          cases decode ((some entries).getD []) with
          | ok value => exact .decoded (.inl ⟨value, rfl, rfl⟩)
          | error raised => exact .raised (like.refl raised)

end Decoding

/-- However exceptions are told apart, the runtime's ways come to what those of a plugin come to
unless a handler that only one of them has changes an exception, or a class has taken the
decoder of a class whose codec makes something else of the settings.  No containers are shared. -/
theorem codec_fast_paths {T D : Type} [PluginValue T] (like : Likeness) (codec : JsonCodec T)
    (value : T) (registry : ActionRegistry T) (action context : Str) (dependencies : D) :
    (EncodesAlike like (codec.encodeWithCodec value) (codec.encodeWithCodecPayload value) ↔
      ¬codec.EncodingChanges like value) ∧
    (∀ settings isolated entries, settings.Holds entries → isolated.Holds entries →
      (DecodesAlike like (codec.decodeWithCodec settings).result
          (codec.decodeIsolatedWithCodec isolated).result ↔
        ¬codec.DecodingChanges like entries)) ∧
    (∀ settings isolated entries, settings.Holds entries → isolated.Holds entries →
      (CreatesAlike like (registry.create action context settings dependencies)
          (registry.createFromOwnedSettings action context isolated dependencies) ↔
        ∀ actionType, registry.find action = some actionType →
          ¬actionType.CreationChanges like entries)) ∧
    (∀ located handed, (codec.decodeWithCodec located).handed = some handed →
      handed.Apart located.heap.length) ∧
    ∀ encoded result, codec.encoderReturns value = .ok encoded →
      codec.encodeWithCodec value = .ok result ∨ codec.encodeWithCodecPayload value = .ok result →
        result.Apart encoded.heap.length := by
  refine ⟨encodes_alike_iff, fun _ _ _ => decodes_alike_iff, fun _ _ _ => creates_alike,
    fun _ _ => decodeWithCodec_apart, ?_⟩
  rintro encoded result returns (plain | fast)
  · exact encodeWithCodec_apart returns plain
  · exact encodeWithCodecPayload_apart returns fast

/-- Values that are no dictionaries. -/
instance flagValue : PluginValue Bool where
  asObject flag := { heap := [], object := .value (.bool flag) }

def typeError : PyException :=
  .printable .typeError ⟨Str.ofString "TypeError"⟩ ⟨[]⟩

/-- Its encoder returns a dictionary that raises `TypeError` when it is read, and its decoder
raises a `ValueError` whose `__str__` does. -/
def fragileCodec : JsonCodec Bool :=
  .functional (fun _ => .error (.unprintable .valueError ⟨Str.ofString "Refused"⟩ typeError))
    fun _ => .ok { heap := [], object := .raising typeError }

/-- A class with a codec of its own that has taken the decoder of another class. -/
def borrowingRegistry : ActionRegistry Bool :=
  [(⟨[]⟩, {
    settingsCodec := .custom (fun _ => .ok true) fun _ => .ok { heap := [], object := .value .none }
    decodeSettings := .borrowed
      (.custom (fun _ => .ok false) fun _ => .ok { heap := [], object := .value .none }) })]

def emptySettings : Located :=
  { heap := [.dict []], object := .value (.container 0) }

/-- A clone of it. -/
def isolatedSettings : Located :=
  { heap := [.dict [], .dict []], object := .value (.container 1) }

theorem fast_paths_differ :
    ¬EncodesAlike .sameType (fragileCodec.encodeWithCodec true)
      (fragileCodec.encodeWithCodecPayload true) ∧
    (emptySettings.Holds [] ∧ isolatedSettings.Holds []) ∧
    ¬DecodesAlike .sameType (fragileCodec.decodeWithCodec emptySettings).result
      (fragileCodec.decodeIsolatedWithCodec isolatedSettings).result ∧
    ¬CreatesAlike .sameType (borrowingRegistry.create ⟨[]⟩ ⟨[]⟩ emptySettings ())
      (borrowingRegistry.createFromOwnedSettings ⟨[]⟩ ⟨[]⟩ isolatedSettings ()) := by
  have holds : emptySettings.Holds [] := Located.content_iff.mp rfl
  have copied : isolatedSettings.Holds [] := Located.content_iff.mp rfl
  have changes : Likeness.sameType.Changes typeError := ⟨rfl, nofun⟩
  refine ⟨fun alike => ?_, ⟨holds, copied⟩, fun alike => ?_, fun alike => ?_⟩
  · exact encodes_alike_iff.mp alike (.inr ⟨rfl, _, _, rfl, rfl, .inl ⟨rfl, changes⟩⟩)
  · exact (decodes_alike_iff holds copied).mp alike ⟨rfl, _, rfl, rfl, _, rfl, changes⟩
  · refine (creates_alike holds copied).mp alike _ rfl fun same => ?_
    rcases same with same | ⟨others, first, _⟩
    · cases same
    · cases first

end StreamDockSdk.Codecs
