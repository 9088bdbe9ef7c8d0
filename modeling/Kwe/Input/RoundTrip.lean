import Kwe.Input.Messages

/-!
What the encoders accept is what the decoders get back.

* `encodeLine_spec`, `decodeLine_toJson`: the line of a value and what is read of it;
* `messages_read_back`: for each kind of message, when its accepted values read
  back, and which values of the constructors are accepted.
-/

namespace Kwe.Input

open Foundation

variable {F32 F64 : Type}

/-! ## Lines -/

theorem encodeLine_ok {fields : Json.Fields} {line : List UInt8}
    (h : encodeLine fields = .ok line) :
    line = Json.toBytes (.object fields) ++ [newline] ∧ line.length ≤ maxMessageBytes := by
  simp only [encodeLine] at h
  split at h
  next => cases h
  next hle =>
    obtain rfl := Except.ok.inj h
    exact ⟨rfl, Nat.le_of_not_lt hle⟩

theorem validateFraming_line {fields : Json.Fields} {line : List UInt8}
    (h : encodeLine fields = .ok line) :
    validateFraming line = .ok (Json.toBytes (.object fields)) := by
  obtain ⟨rfl, hle⟩ := encodeLine_ok h
  generalize Json.object fields = v at *
  have hclean : ∀ b : UInt8, b.toNat < 0x20 → v.toBytes.contains b = false := by
    intro b hb
    rw [Bool.eq_false_iff, ne_eq, List.contains_iff_mem]
    intro hmem
    exact absurd (Json.le_of_mem_toBytes hmem) (Nat.not_le_of_lt hb)
  have hstrip : stripNewline (v.toBytes ++ [newline]) = v.toBytes := by simp [stripNewline]
  have hne := Json.toBytes_ne_nil v
  have hsize : ¬ maxMessageBytes < (v.toBytes ++ [newline]).length := Nat.not_lt.mpr hle
  have hempty : (v.toBytes ++ [newline]).isEmpty = false := by simp
  simp only [validateFraming, hempty, hsize, hstrip, decide_false, Bool.or_false,
    Bool.false_eq_true, if_false, hclean newline (by decide), hclean carriageReturn (by decide)]
  rw [if_neg (by simp [hne])]

/-- What reads back is decoded from its line. -/
theorem decodeLine_ok {α : Type} {serde : Serde F32 F64} (hfaith : serde.Faithful)
    {ofJson : Json → Option α} {fields : Json.Fields} {message : α}
    (hnodup : (fields.map Prod.fst).Nodup) (hfields : ∀ f ∈ fields, serde.Field f.2)
    (hof : ofJson (.object fields) = some message) {line : List UInt8}
    (h : encodeLine fields = .ok line) : serde.decodeLine ofJson line = .ok message := by
  simp [Serde.decodeLine, validateFraming_line h, hfaith.reads fields hnodup hfields, hof, bind,
    Except.bind]

/-! ## Values -/

@[simp] theorem asU16_nat (n : UInt16) : asU16 (.nat n.toNat) = some n := by
  simp [asU16, Json.asBounded, UInt16.toNat_lt_size]

@[simp] theorem asU32_nat (n : UInt32) : asU32 (.nat n.toNat) = some n := by
  simp [asU32, Json.asBounded, UInt32.toNat_lt_size]

@[simp] theorem asU64_nat (n : UInt64) : asU64 (.nat n.toNat) = some n := by
  simp [asU64, Json.asBounded, UInt64.toNat_lt_size]

@[simp] theorem PointerPhase.ofName_name (phase : PointerPhase) :
    PointerPhase.ofName phase.name = some phase := by cases phase <;> rfl

@[simp] theorem PointerButton.ofName_name (button : PointerButton) :
    PointerButton.ofName button.name = some button := by cases button <;> rfl

theorem PointerMessage.ofJson_fields (message : PointerMessage) :
    ofJson (.object message.fields) = some message := by
  obtain ⟨version, messageType, sequence, phase, x, y, button⟩ := message
  cases button <;>
    simp [ofJson, fields, names, Json.record, Json.required, Json.optional, Json.get, Json.asStr,
      Json.asVariant]

theorem InputAck.ofJson_fields (ack : InputAck) : ofJson (.object ack.fields) = some ack := by
  simp [ofJson, fields, names, Json.record, Json.required, Json.get, Json.asStr]

section Floats

variable {F : Type} {floats : Floats F} {low high : Rat} {x : F}

theorem Floats.isSome_of_within (h : floats.within low high x = true) :
    (floats.value x).isSome = true := by
  rw [within] at h
  split at h
  next => cases h
  next value hvalue => rw [hvalue, Option.isSome_some]

/-- A number within bounds is printed and read back. -/
theorem Floats.Faithful.print (hfaith : floats.Faithful)
    (h : floats.within low high x = true) :
    ∃ text, floats.text x = some text ∧ floats.toJson x = .float text ∧
      Utf8.size (Json.write (floats.toJson x)) ≤ 24 ∧
      floats.ofNumber (floats.toJson x) = some x := by
  obtain ⟨text, htext, hle, hread⟩ := hfaith x (isSome_of_within h)
  have hjson : floats.toJson x = .float text := by simp [toJson, htext]
  refine ⟨text, htext, hjson, ?_, hjson ▸ hread⟩
  rw [hjson, Json.write, Json.size_number text.2.2.1]
  exact hle

end Floats

/-! ## Constructors -/

theorem quantizeCoordinate_ok {floats : Floats F64} {value : F64} {q : UInt16}
    (h : quantizeCoordinate floats value = .ok q) : floats.scaled value = q := by
  rw [quantizeCoordinate] at h
  split at h
  next => exact Except.ok.inj h
  next => cases h

theorem PointerMessage.fromNormalized_ok {floats : Floats F64} {sequence : UInt64}
    {phase : PointerPhase} {x y : F64} {message : PointerMessage}
    (h : fromNormalized floats sequence phase x y = .ok message) :
    sequence ≠ 0 ∧ message = ⟨Input.version, "pointer_position", sequence, phase,
      floats.scaled x, floats.scaled y, none⟩ := by
  rw [fromNormalized] at h
  split at h
  next => cases h
  next hsequence =>
    cases hx : quantizeCoordinate floats x with
    | error e => simp [hx, bind, Except.bind] at h
    | ok qx =>
      cases hy : quantizeCoordinate floats y with
      | error e => simp [hx, hy, bind, Except.bind] at h
      | ok qy =>
        simp only [hx, hy, bind, Except.bind] at h
        obtain rfl := quantizeCoordinate_ok hx
        obtain rfl := quantizeCoordinate_ok hy
        exact ⟨hsequence, (Except.ok.inj h).symm⟩

theorem PointerMessage.buttonEvent_ok {floats : Floats F64} {sequence : UInt64}
    {phase : PointerPhase} {button : PointerButton} {x y : F64} {message : PointerMessage}
    (h : buttonEvent floats sequence phase button x y = .ok message) :
    phase.isButton = true ∧ sequence ≠ 0 ∧ message = ⟨Input.version, "pointer_position", sequence,
      phase, floats.scaled x, floats.scaled y, some button⟩ := by
  rw [buttonEvent] at h
  split at h
  next => cases h
  next hphase =>
    cases hplain : fromNormalized floats sequence phase x y with
    | error e => simp [hplain, bind, Except.bind] at h
    | ok plain =>
      obtain ⟨hsequence, rfl⟩ := fromNormalized_ok hplain
      simp only [hplain, bind, Except.bind] at h
      exact ⟨by simpa using hphase, hsequence, (Except.ok.inj h).symm⟩

theorem PointerMessage.validate_ok {message : PointerMessage} :
    message.validate = .ok () ↔ message.version = Input.version ∧
      message.messageType = "pointer_position" ∧ message.sequence ≠ 0 ∧
      message.phase.isButton = message.button.isSome := by
  unfold validate
  by_cases hversion : message.version = Input.version <;>
    by_cases htype : message.messageType = "pointer_position" <;>
    by_cases hsequence : message.sequence = 0 <;>
    by_cases hbutton : message.phase.isButton = message.button.isSome <;>
    simp [hversion, htype, hsequence, hbutton]

theorem InputAck.validate_ok {ack : InputAck} :
    ack.validate = .ok () ↔ ack.version = Input.version ∧ ack.messageType = "input_ack" ∧
      ack.sequence ≠ 0 := by
  unfold validate
  by_cases hversion : ack.version = Input.version <;>
    by_cases htype : ack.messageType = "input_ack" <;>
    by_cases hsequence : ack.sequence = 0 <;>
    simp [hversion, htype, hsequence]

/-- What `AudioFrame::new` checks of its bands. -/
structure AudioFrame.Bands (floats : Floats F32) (left right : List F32) : Prop where
  same : left.length = right.length
  count : left.length ∈ [16, 32, 64]
  within : ∀ x ∈ left ++ right, floats.within 0 1 x = true

theorem AudioFrame.new_ok {floats : Floats F32} {sequence : UInt64} {left right : List F32}
    {frame : AudioFrame F32} : new floats sequence left right = .ok frame ↔
      sequence ≠ 0 ∧ Bands floats left right ∧
        frame = ⟨Input.version, "audio_bands", sequence, left, right⟩ := by
  unfold new
  split
  next hbad =>
    refine ⟨fun h => (nomatch h), fun ⟨hsequence, hbands, _⟩ => ?_⟩
    rcases hbad with hbad | hbad | hbad
    · exact absurd hbad hsequence
    · exact absurd hbands.same hbad
    · exact absurd hbands.count hbad
  next hgood =>
    simp only [not_or, not_not] at hgood
    obtain ⟨hsequence, hsame, hcount⟩ := hgood
    split
    next hany =>
      refine ⟨fun h => (nomatch h), fun ⟨_, hbands, _⟩ => ?_⟩
      obtain ⟨x, hx, hout⟩ := List.any_eq_true.mp hany
      rw [hbands.within x hx] at hout
      cases hout
    next hany =>
      have hwithin : ∀ x ∈ left ++ right, floats.within 0 1 x = true := by
        intro x hx
        by_contra hout
        exact hany (List.any_eq_true.mpr ⟨x, hx, by simp [hout]⟩)
      exact ⟨fun h => ⟨hsequence, ⟨hsame, hcount, hwithin⟩, (Except.ok.inj h).symm⟩,
        fun ⟨_, _, heq⟩ => by rw [heq]⟩

/-- What `MediaState::new` checks of the playback and the timeline. -/
structure MediaState.Timeline (floats : Floats F64) (playback : String)
    (position duration : Option F64) : Prop where
  playback : playback ∈ ["playing", "paused", "stopped"]
  position : ∀ x ∈ position, floats.within 0 86400 x = true
  duration : ∀ x ∈ duration, floats.within 0 86400 x = true

theorem MediaState.new_ok {floats : Floats F64} {sequence : UInt64} {playback : String}
    {title artist album : Option String} {position duration : Option F64}
    {state : MediaState F64} :
    new floats sequence playback title artist album position duration = .ok state ↔
      sequence ≠ 0 ∧ Timeline floats playback position duration ∧
        state = ⟨Input.version, "media_state", sequence, playback, truncate title,
          truncate artist, truncate album, position, duration⟩ := by
  unfold new
  split
  next hbad =>
    refine ⟨fun h => (nomatch h), fun ⟨hsequence, htimeline, _⟩ => ?_⟩
    rcases hbad with hbad | hbad
    · exact absurd hbad hsequence
    · exact absurd htimeline.playback hbad
  next hgood =>
    simp only [not_or, not_not] at hgood
    obtain ⟨hsequence, hplayback⟩ := hgood
    have hvalues : ([position, duration].reduceOption.any fun value =>
        !floats.within 0 86400 value) = false ↔
        (∀ x ∈ position, floats.within 0 86400 x = true) ∧
          ∀ x ∈ duration, floats.within 0 86400 x = true := by
      cases position <;> cases duration <;> simp [List.reduceOption]
    split
    next hany =>
      refine ⟨fun h => (nomatch h), fun ⟨_, htimeline, _⟩ => ?_⟩
      rw [hvalues.mpr ⟨htimeline.position, htimeline.duration⟩] at hany
      cases hany
    next hany =>
      obtain ⟨hposition, hduration⟩ := hvalues.mp (Bool.eq_false_iff.mpr hany)
      exact ⟨fun h => ⟨hsequence, ⟨hplayback, hposition, hduration⟩, (Except.ok.inj h).symm⟩,
        fun ⟨_, _, heq⟩ => by rw [heq]⟩

/-! ## Reading back -/

theorem AudioFrame.ofJson_fields {floats : Floats F32} (hfaith : floats.Faithful)
    {frame : AudioFrame F32} (h : Bands floats frame.left frame.right) :
    ofJson floats (.object (frame.fields floats)) = some frame := by
  have hreads : ∀ x ∈ frame.left ++ frame.right, floats.ofNumber (floats.toJson x) = some x :=
    fun x hx => (hfaith.print (h.within x hx)).choose_spec.2.2.2
  have hleft := Json.asArray_map fun x hx => hreads x (List.mem_append_left _ hx)
  have hright := Json.asArray_map fun x hx => hreads x (List.mem_append_right _ hx)
  simp [ofJson, fields, names, Json.record, Json.required, Json.get, Json.asStr, hleft, hright]

namespace MediaState

theorem optional_textJson {fields : Json.Fields} {key : String} {value : Option String}
    (h : Json.get fields key = some (textJson value)) :
    Json.optional fields key Json.asStr = some value := by
  cases value with
  | none =>
    have hget : Json.get fields key = some .null := h
    simp [Json.optional, hget]
  | some text =>
    have hget : Json.get fields key = some (.string text) := h
    simp [Json.optional, hget, Json.asStr]

theorem optional_secondsJson {floats : Floats F64} (hfaith : floats.Faithful)
    {low high : Rat} {fields : Json.Fields} {key : String} {value : Option F64}
    (hvalue : ∀ x ∈ value, floats.within low high x = true)
    (h : Json.get fields key = some (secondsJson floats value)) :
    Json.optional fields key floats.ofNumber = some value := by
  cases value with
  | none =>
    have hget : Json.get fields key = some .null := h
    simp [Json.optional, hget]
  | some x =>
    obtain ⟨text, -, hjson, -, hread⟩ := hfaith.print (hvalue x rfl)
    have hget : Json.get fields key = some (.float text) := hjson ▸ h
    rw [hjson] at hread
    simp [Json.optional, hget, hread]

theorem ofJson_fields {floats : Floats F64} (hfaith : floats.Faithful) {state : MediaState F64}
    (h : Timeline floats state.playback state.positionSeconds state.durationSeconds) :
    ofJson floats (.object (state.fields floats)) = some state := by
  have hrecord : Json.record names (.object (state.fields floats)) = some (state.fields floats) :=
    Json.record_object (List.Sublist.refl names) (by decide)
  have htitle : Json.optional (state.fields floats) "title" Json.asStr = some state.title :=
    optional_textJson rfl
  have hartist : Json.optional (state.fields floats) "artist" Json.asStr = some state.artist :=
    optional_textJson rfl
  have halbum : Json.optional (state.fields floats) "album" Json.asStr = some state.album :=
    optional_textJson rfl
  have hposition : Json.optional (state.fields floats) "position_seconds" floats.ofNumber =
      some state.positionSeconds := optional_secondsJson hfaith h.position rfl
  have hduration : Json.optional (state.fields floats) "duration_seconds" floats.ofNumber =
      some state.durationSeconds := optional_secondsJson hfaith h.duration rfl
  simp only [ofJson, hrecord, Option.bind_eq_bind, Option.bind_some, htitle, hartist, halbum,
    hposition, hduration]
  simp [fields, Json.required, Json.get, Json.asStr]

end MediaState

/-! ## The fields of the messages -/

section Fields

variable {serde : Serde F32 F64}

theorem PointerMessage.fields_printed (message : PointerMessage) :
    (message.fields.map Prod.fst).Nodup ∧ ∀ f ∈ message.fields, serde.Field f.2 := by
  obtain ⟨version, messageType, sequence, phase, x, y, button⟩ := message
  have hflat : ∀ f ∈ fields ⟨version, messageType, sequence, phase, x, y, none⟩,
      serde.Flat f.2 := by
    simp only [fields, Option.map_none, Option.toList_none, List.append_nil, List.forall_mem_cons]
    exact ⟨.nat (version.toNat_lt.trans (by decide)), .string _, .nat sequence.toNat_lt,
      .string _, .nat (x.toNat_lt.trans (by decide)), .nat (y.toNat_lt.trans (by decide)),
      List.forall_mem_nil _⟩
  cases button with
  | none => exact ⟨by simp [fields], fun f hf => .flat (hflat f hf)⟩
  | some button =>
    refine ⟨by simp [fields], fun f hf => ?_⟩
    rcases List.mem_append.mp hf with hf | hf
    · exact .flat (hflat f (List.mem_append_left _ hf))
    · obtain rfl := List.mem_singleton.mp hf
      exact .flat (.string _)

theorem InputAck.fields_printed (ack : InputAck) :
    (ack.fields.map Prod.fst).Nodup ∧ ∀ f ∈ ack.fields, serde.Field f.2 := by
  refine ⟨by simp [fields], ?_⟩
  simp only [fields, List.forall_mem_cons]
  exact ⟨.flat (.nat (ack.version.toNat_lt.trans (by decide))), .flat (.string _),
    .flat (.nat ack.sequence.toNat_lt), List.forall_mem_nil _⟩

theorem AudioFrame.fields_printed (hfaith : serde.f32.Faithful) {frame : AudioFrame F32}
    (h : Bands serde.f32 frame.left frame.right) :
    ((frame.fields serde.f32).map Prod.fst).Nodup ∧
      ∀ f ∈ frame.fields serde.f32, serde.Field f.2 := by
  have hflat : ∀ x ∈ frame.left ++ frame.right, serde.Flat (serde.f32.toJson x) := by
    intro x hx
    obtain ⟨text, htext, hjson, -⟩ := hfaith.print (h.within x hx)
    exact hjson ▸ .f32 htext
  refine ⟨by simp [fields], ?_⟩
  simp only [fields, List.forall_mem_cons]
  refine ⟨.flat (.nat (frame.version.toNat_lt.trans (by decide))), .flat (.string _),
    .flat (.nat frame.sequence.toNat_lt), .array ?_, .array ?_, List.forall_mem_nil _⟩
  · exact List.forall_mem_map.mpr fun x hx => hflat x (List.mem_append_left _ hx)
  · exact List.forall_mem_map.mpr fun x hx => hflat x (List.mem_append_right _ hx)

theorem MediaState.fields_printed (hfaith : serde.f64.Faithful) {state : MediaState F64}
    (h : Timeline serde.f64 state.playback state.positionSeconds state.durationSeconds) :
    ((state.fields serde.f64).map Prod.fst).Nodup ∧
      ∀ f ∈ state.fields serde.f64, serde.Field f.2 := by
  have htext : ∀ value, serde.Flat (textJson value) := by
    intro value
    cases value with
    | none => exact .null
    | some text => exact .string text
  have hseconds : ∀ value : Option F64,
      (∀ x ∈ value, serde.f64.within 0 86400 x = true) →
      serde.Flat (secondsJson serde.f64 value) := by
    intro value hvalue
    cases value with
    | none => exact .null
    | some x =>
      obtain ⟨text, htext, hjson, -⟩ := hfaith.print (hvalue x rfl)
      have hx : secondsJson serde.f64 (some x) = .float text := hjson
      exact hx ▸ .f64 htext
  refine ⟨by simp [fields], ?_⟩
  simp only [fields, List.forall_mem_cons]
  exact ⟨.flat (.nat (state.version.toNat_lt.trans (by decide))), .flat (.string _),
    .flat (.nat state.sequence.toNat_lt), .flat (.string _), .flat (htext _), .flat (htext _),
    .flat (htext _), .flat (hseconds _ h.position), .flat (hseconds _ h.duration),
    List.forall_mem_nil _⟩

end Fields

/-! ## Sizes -/

theorem size_nat_le {n k : Nat} (hk : 0 < k) (h : n < 10 ^ k) :
    Utf8.size (Json.write (.nat n)) ≤ k := by
  rw [Json.write, Json.size_toDigits]
  exact (Nat.length_toDigits_le_iff (by decide) hk).mpr h

theorem length_line {fields : Json.Fields} (h : fields ≠ []) :
    (Json.toBytes (.object fields) ++ [newline]).length =
      (fields.map fun f => Utf8.size (Format.quoted.write f.1) + Utf8.size (Json.write f.2) + 2).sum
        + 2 := by
  rw [List.length_append, Json.toBytes, Utf8.length_encode, Json.size_object h]
  rfl

/-- A line that is short enough. -/
theorem encodeLine_short {fields : Json.Fields}
    (h : (Json.toBytes (.object fields) ++ [newline]).length ≤ maxMessageBytes) :
    encodeLine fields = .ok (Json.toBytes (.object fields) ++ [newline]) := by
  simp only [encodeLine]
  exact if_neg (Nat.not_lt.mpr h)

theorem PointerMessage.length_line_le {message : PointerMessage}
    (h : message.validate = .ok ()) :
    (Json.toBytes (.object message.fields) ++ [newline]).length ≤ maxMessageBytes := by
  obtain ⟨hversion, htype, -, -⟩ := validate_ok.mp h
  have hsequence := size_nat_le (k := 20) (by decide)
    (message.sequence.toNat_lt.trans (by decide))
  have hx := size_nat_le (k := 5) (by decide) (message.x.toNat_lt.trans (by decide))
  have hy := size_nat_le (k := 5) (by decide) (message.y.toNat_lt.trans (by decide))
  have hphase : Utf8.size (Json.write (.string message.phase.name)) ≤ 7 := by
    cases message.phase <;> decide
  have hbutton : (((message.button.map fun button => ("button", Json.string button.name)).toList.map
      fun f => Utf8.size (Format.quoted.write f.1) + Utf8.size (Json.write f.2) + 2).sum) ≤ 24 := by
    rcases message.button with _ | (_ | _ | _) <;> decide
  have hfixed : Utf8.size (Format.quoted.write "version") + Utf8.size (Json.write (.nat 1)) +
      Utf8.size (Format.quoted.write "type") +
      Utf8.size (Json.write (.string "pointer_position")) +
      Utf8.size (Format.quoted.write "sequence") + Utf8.size (Format.quoted.write "phase") +
      Utf8.size (Format.quoted.write "x") + Utf8.size (Format.quoted.write "y") ≤ 100 := by
    decide
  have hone : message.version.toNat = 1 := by rw [hversion]; rfl
  rw [length_line (by simp [fields])]
  simp only [fields, List.map_append, List.sum_append, List.map_cons, List.map_nil, List.sum_cons,
    List.sum_nil, hone, htype, maxMessageBytes]
  omega

theorem InputAck.length_line_le {ack : InputAck} (h : ack.validate = .ok ()) :
    (Json.toBytes (.object ack.fields) ++ [newline]).length ≤ maxMessageBytes := by
  obtain ⟨hversion, htype, -⟩ := validate_ok.mp h
  have hsequence := size_nat_le (k := 20) (by decide) (ack.sequence.toNat_lt.trans (by decide))
  have hfixed : Utf8.size (Format.quoted.write "version") + Utf8.size (Json.write (.nat 1)) +
      Utf8.size (Format.quoted.write "type") + Utf8.size (Json.write (.string "input_ack")) +
      Utf8.size (Format.quoted.write "sequence") ≤ 100 := by
    decide
  have hone : ack.version.toNat = 1 := by rw [hversion]; rfl
  rw [length_line (by simp [fields])]
  simp only [fields, List.map_cons, List.map_nil, List.sum_cons, List.sum_nil, hone, htype,
    maxMessageBytes]
  omega

theorem Floats.Faithful.size_array_le {F : Type} {floats : Floats F} (hfaith : floats.Faithful)
    {low high : Rat} {values : List F} (h : ∀ x ∈ values, floats.within low high x = true) :
    Utf8.size (Json.write (.array (values.map floats.toJson))) ≤ 25 * values.length + 2 := by
  have hitems : (((values.map floats.toJson).map fun v => Utf8.size (Json.write v) + 1).sum) ≤
      25 * values.length := by
    induction values with
    | nil => exact Nat.le_refl _
    | cons x values ih =>
      obtain ⟨hx, hvalues⟩ := List.forall_mem_cons.mp h
      obtain ⟨-, -, -, hle, -⟩ := hfaith.print hx
      have hrest := ih hvalues
      rw [List.map_cons, List.map_cons, List.sum_cons, List.length_cons]
      omega
  cases values with
  | nil => exact Nat.le_refl _
  | cons x values =>
    rw [Json.size_array (by simp)]
    omega

theorem AudioFrame.length_line_le {floats : Floats F32} (hfaith : floats.Faithful)
    {frame : AudioFrame F32} (hversion : frame.version = Input.version)
    (htype : frame.messageType = "audio_bands") (h : Bands floats frame.left frame.right) :
    (Json.toBytes (.object (frame.fields floats)) ++ [newline]).length ≤ maxMessageBytes := by
  have hsequence := size_nat_le (k := 20) (by decide)
    (frame.sequence.toNat_lt.trans (by decide))
  have hfixed : Utf8.size (Format.quoted.write "version") + Utf8.size (Json.write (.nat 1)) +
      Utf8.size (Format.quoted.write "type") + Utf8.size (Json.write (.string "audio_bands")) +
      Utf8.size (Format.quoted.write "sequence") + Utf8.size (Format.quoted.write "left") +
      Utf8.size (Format.quoted.write "right") ≤ 100 := by
    decide
  have hone : frame.version.toNat = 1 := by rw [hversion]; rfl
  have hleft := hfaith.size_array_le fun x hx => h.within x (List.mem_append_left _ hx)
  have hright := hfaith.size_array_le fun x hx => h.within x (List.mem_append_right _ hx)
  have hcount : frame.left.length ≤ 64 := by
    have hmem := h.count
    simp only [List.mem_cons, List.not_mem_nil, or_false] at hmem
    omega
  have hsame := h.same
  rw [length_line (by simp [fields])]
  simp only [fields, List.map_cons, List.map_nil, List.sum_cons, List.sum_nil, hone, htype,
    maxMessageBytes]
  omega

/-- The bytes of a character in a JSON string. -/
def escapedSize (c : Char) : Nat :=
  if c = Format.quote ∨ c = Format.backslash ∨ c.toNat ∈ [8, 9, 10, 12, 13] then 2
  else if c.toNat < 0x20 then 6
  else c.utf8Size

theorem size_escape (c : Char) : Utf8.size (Format.escape c) = escapedSize c := by
  have hshort : (Format.shortEscapes.find? (·.1 = c)).isSome ↔
      c = Format.quote ∨ c = Format.backslash ∨ c.toNat ∈ [8, 9, 10, 12, 13] := by
    have hnat : ∀ n < 32, (Char.ofNat n).toNat = n := by decide
    have hcode : ∀ n < 32, (c = Char.ofNat n ↔ c.toNat = n) := by
      intro n hn
      constructor
      · rintro rfl
        exact hnat n hn
      · rintro rfl
        exact (Char.ofNat_toNat c).symm
    simp [Format.shortEscapes, @eq_comm _ _ c, hcode]
  have hhex : ∀ n < 16, (Format.hexDigit n).utf8Size = 1 := by decide
  have hletter : ∀ p ∈ Format.shortEscapes, p.2.utf8Size = 1 := by decide
  unfold Format.escape escapedSize
  split
  next p hp =>
    rw [if_pos (hshort.mp (by simp [hp]))]
    simp only [Utf8.size_cons, Utf8.size_nil, hletter p (List.mem_of_find?_eq_some hp)]
    rfl
  next hp =>
    have hlong : ¬ (c = Format.quote ∨ c = Format.backslash ∨ c.toNat ∈ [8, 9, 10, 12, 13]) :=
      fun h => by simpa [hp] using hshort.mpr h
    rw [if_neg hlong]
    split
    next hlt =>
      simp only [Utf8.size_cons, Utf8.size_nil, hhex _ (show c.toNat / 16 < 16 by omega),
        hhex _ (Nat.mod_lt c.toNat (by decide))]
      rfl
    next => rfl

namespace MediaState

/-- The bytes of a title in a line. -/
def titleSize : Option String → Nat
  | none => 4
  | some text => ((text.toList.take 512).map escapedSize).sum + 2

/-- The bytes of a time in a line. -/
def secondsSize (floats : Floats F64) : Option F64 → Nat
  | none => 4
  | some x => ((floats.text x).map fun text => text.1.length).getD 4

/-- The bytes of the line of a media state. -/
def lineSize (floats : Floats F64) (sequence : UInt64) (playback : String)
    (title artist album : Option String) (position duration : Option F64) : Nat :=
  129 + (Nat.toDigits 10 sequence.toNat).length + playback.length + titleSize title +
    titleSize artist + titleSize album + secondsSize floats position + secondsSize floats duration

theorem size_textJson (value : Option String) :
    Utf8.size (Json.write (textJson (truncate value))) = titleSize value := by
  cases value with
  | none => rfl
  | some text =>
    have hjson : textJson (truncate (some text)) = .string (String.ofList (text.toList.take 512)) :=
      rfl
    rw [hjson, Json.write, Json.size_quoted, String.toList_ofList,
      List.map_congr_left fun c _ => size_escape c]
    rfl

theorem size_secondsJson (floats : Floats F64) (value : Option F64) :
    Utf8.size (Json.write (secondsJson floats value)) = secondsSize floats value := by
  cases value with
  | none => rfl
  | some x =>
    simp only [secondsJson, Option.map_some, Option.getD_some, Floats.toJson, secondsSize]
    cases floats.text x with
    | none => rfl
    | some text => exact Json.size_number text.2.2.1

theorem length_line_new {floats : Floats F64} {sequence : UInt64} {playback : String}
    {title artist album : Option String} {position duration : Option F64}
    {state : MediaState F64}
    (h : new floats sequence playback title artist album position duration = .ok state) :
    (Json.toBytes (.object (state.fields floats)) ++ [newline]).length =
      lineSize floats sequence playback title artist album position duration := by
  obtain ⟨-, htimeline, rfl⟩ := new_ok.mp h
  have hplayback : Utf8.size (Json.write (.string playback)) = playback.length + 2 := by
    have hmem := htimeline.playback
    simp only [List.mem_cons, List.not_mem_nil, or_false] at hmem
    rcases hmem with rfl | rfl | rfl <;> decide
  have hfixed : Utf8.size (Format.quoted.write "version") = 9 ∧
      Utf8.size (Json.write (.nat Input.version.toNat)) = 1 ∧
      Utf8.size (Format.quoted.write "type") = 6 ∧
      Utf8.size (Json.write (.string "media_state")) = 13 ∧
      Utf8.size (Format.quoted.write "sequence") = 10 ∧
      Utf8.size (Format.quoted.write "playback") = 10 ∧
      Utf8.size (Format.quoted.write "title") = 7 ∧ Utf8.size (Format.quoted.write "artist") = 8 ∧
      Utf8.size (Format.quoted.write "album") = 7 ∧
      Utf8.size (Format.quoted.write "position_seconds") = 18 ∧
      Utf8.size (Format.quoted.write "duration_seconds") = 18 := by
    decide
  have hsequence : Utf8.size (Json.write (.nat sequence.toNat)) =
      (Nat.toDigits 10 sequence.toNat).length := Json.size_toDigits _
  rw [length_line (by simp [fields])]
  simp only [fields, List.map_cons, List.map_nil, List.sum_cons, List.sum_nil, size_textJson,
    size_secondsJson, hplayback, hfixed, hsequence, lineSize]
  omega

/-- The states that the decoder can return: they have the version and the type
that it checks, and titles that it does not cut. -/
structure Canonical (state : MediaState F64) : Prop where
  version : state.version = Input.version
  type : state.messageType = "media_state"
  title : ∀ text ∈ state.title, text.length ≤ 512
  artist : ∀ text ∈ state.artist, text.length ≤ 512
  album : ∀ text ∈ state.album, text.length ≤ 512

theorem truncate_eq {value : Option String} :
    truncate value = value ↔ ∀ text ∈ value, text.length ≤ 512 := by
  cases value with
  | none => simp [truncate]
  | some text =>
    simp only [truncate, Option.map_some, Option.some.injEq, Option.mem_some_iff, forall_eq']
    rw [← String.toList_inj, String.toList_ofList, ← String.length_toList]
    refine ⟨fun h => ?_, List.take_of_length_le⟩
    rw [← h]
    exact List.length_take_le _ _

end MediaState

/-! ## Encoders -/

theorem encodePointerLine_ok {message : PointerMessage} {line : List UInt8} :
    encodePointerLine message = .ok line ↔
      message.validate = .ok () ∧ encodeLine message.fields = .ok line := by
  unfold encodePointerLine
  cases message.validate <;> simp [bind, Except.bind]

theorem encodeAckLine_ok {ack : InputAck} {line : List UInt8} :
    encodeAckLine ack = .ok line ↔ ack.validate = .ok () ∧ encodeLine ack.fields = .ok line := by
  unfold encodeAckLine
  cases ack.validate <;> simp [bind, Except.bind]

theorem encodeAudioFrame_ok {floats : Floats F32} {frame : AudioFrame F32} {line : List UInt8} :
    encodeAudioFrame floats frame = .ok line ↔ frame.version = version ∧
      frame.messageType = "audio_bands" ∧ frame.sequence ≠ 0 ∧
      AudioFrame.Bands floats frame.left frame.right ∧
      encodeLine (frame.fields floats) = .ok line := by
  unfold encodeAudioFrame
  split
  next hbad =>
    refine ⟨fun h => (nomatch h), fun ⟨hversion, htype, _⟩ => ?_⟩
    exact absurd hbad (by simp [hversion, htype])
  next hgood =>
    simp only [not_or, not_not] at hgood
    cases hnew : AudioFrame.new floats frame.sequence frame.left frame.right with
    | error e =>
      refine ⟨fun h => (nomatch h), fun ⟨_, _, hsequence, hbands, _⟩ => ?_⟩
      rw [AudioFrame.new_ok.mpr ⟨hsequence, hbands, rfl⟩] at hnew
      cases hnew
    | ok built =>
      obtain ⟨hsequence, hbands, -⟩ := AudioFrame.new_ok.mp hnew
      exact ⟨fun h => ⟨hgood.1, hgood.2, hsequence, hbands, h⟩, fun h => h.2.2.2.2⟩

theorem encodeMediaState_ok {floats : Floats F64} {state : MediaState F64} {line : List UInt8} :
    encodeMediaState floats state = .ok line ↔ state.sequence ≠ 0 ∧
      MediaState.Timeline floats state.playback state.positionSeconds state.durationSeconds ∧
      encodeLine (state.fields floats) = .ok line := by
  unfold encodeMediaState
  cases hnew : MediaState.new floats state.sequence state.playback state.title state.artist
      state.album state.positionSeconds state.durationSeconds with
  | error e =>
    refine ⟨fun h => (nomatch h), fun ⟨hsequence, htimeline, _⟩ => ?_⟩
    rw [MediaState.new_ok.mpr ⟨hsequence, htimeline, rfl⟩] at hnew
    cases hnew
  | ok built =>
    obtain ⟨hsequence, htimeline, -⟩ := MediaState.new_ok.mp hnew
    exact ⟨fun h => ⟨hsequence, htimeline, h⟩, fun h => h.2.2⟩

/-! ## The messages -/

section Messages

variable {α : Type}

/-- The encoder takes the message. -/
def Accepted (encode : α → Except InputProtocolError (List UInt8)) (message : α) : Prop :=
  ∃ line, encode message = .ok line

/-- A line of the message is short and well framed. -/
def Framed (encode : α → Except InputProtocolError (List UInt8)) (message : α) : Prop :=
  ∀ line, encode message = .ok line →
    line.length ≤ maxMessageBytes ∧ ∃ payload, validateFraming line = .ok payload

/-- A line of the message is decoded as the message. -/
def ReadsBack (encode : α → Except InputProtocolError (List UInt8))
    (decode : List UInt8 → Except InputProtocolError α) (message : α) : Prop :=
  ∀ line, encode message = .ok line → decode line = .ok message

theorem framed_of {encode : α → Except InputProtocolError (List UInt8)} {message : α}
    {fields : Json.Fields} (h : ∀ line, encode message = .ok line → encodeLine fields = .ok line) :
    Framed encode message := by
  intro line hline
  exact ⟨(encodeLine_ok (h line hline)).2, _, validateFraming_line (h line hline)⟩

end Messages

section ReadBack

variable {serde : Serde F32 F64}

theorem readsBack_pointer (hfaith : serde.Faithful) (message : PointerMessage) :
    ReadsBack encodePointerLine (decodePointerLine serde) message := by
  intro line h
  obtain ⟨hvalid, hline⟩ := encodePointerLine_ok.mp h
  obtain ⟨hnodup, hfields⟩ := @PointerMessage.fields_printed _ _ serde message
  have hread := decodeLine_ok hfaith hnodup hfields message.ofJson_fields hline
  simp [decodePointerLine, hread, hvalid, bind, Except.bind]

theorem readsBack_ack (hfaith : serde.Faithful) (ack : InputAck) :
    ReadsBack encodeAckLine (decodeAckLine serde) ack := by
  intro line h
  obtain ⟨hvalid, hline⟩ := encodeAckLine_ok.mp h
  obtain ⟨hnodup, hfields⟩ := @InputAck.fields_printed _ _ serde ack
  have hread := decodeLine_ok hfaith hnodup hfields ack.ofJson_fields hline
  simp [decodeAckLine, hread, hvalid, bind, Except.bind]

theorem readsBack_audio (hfaith : serde.Faithful) (frame : AudioFrame F32) :
    ReadsBack (encodeAudioFrame serde.f32) (decodeAudioFrame serde) frame := by
  intro line h
  obtain ⟨hversion, htype, hsequence, hbands, hline⟩ := encodeAudioFrame_ok.mp h
  obtain ⟨hnodup, hfields⟩ := AudioFrame.fields_printed hfaith.f32 hbands
  have hread := decodeLine_ok hfaith hnodup hfields
    (AudioFrame.ofJson_fields hfaith.f32 hbands) hline
  have hnew : AudioFrame.new serde.f32 frame.sequence frame.left frame.right = .ok frame := by
    rw [AudioFrame.new_ok]
    refine ⟨hsequence, hbands, ?_⟩
    rw [← hversion, ← htype]
  simp [decodeAudioFrame, hread, hversion, htype, hnew, bind, Except.bind]

/-- What is decoded of the line of a media state. -/
theorem decode_media (hfaith : serde.Faithful) {state : MediaState F64} {line : List UInt8}
    (h : encodeMediaState serde.f64 state = .ok line) :
    decodeMediaState serde line = .ok state ↔ state.Canonical := by
  obtain ⟨hsequence, htimeline, hline⟩ := encodeMediaState_ok.mp h
  obtain ⟨hnodup, hfields⟩ := MediaState.fields_printed hfaith.f64 htimeline
  have hread := decodeLine_ok hfaith hnodup hfields
    (MediaState.ofJson_fields hfaith.f64 htimeline) hline
  simp only [decodeMediaState, hread, bind, Except.bind]
  split
  next hbad =>
    refine ⟨fun h => (nomatch h), fun hcanonical => ?_⟩
    exact absurd hbad (by simp [hcanonical.version, hcanonical.type])
  next hgood =>
    simp only [not_or, not_not] at hgood
    rw [MediaState.new_ok]
    constructor
    · rintro ⟨-, -, heq⟩
      have htitle := congrArg MediaState.title heq
      have hartist := congrArg MediaState.artist heq
      have halbum := congrArg MediaState.album heq
      exact ⟨hgood.1, hgood.2, MediaState.truncate_eq.mp htitle.symm,
        MediaState.truncate_eq.mp hartist.symm, MediaState.truncate_eq.mp halbum.symm⟩
    · intro hcanonical
      refine ⟨hsequence, htimeline, ?_⟩
      rw [MediaState.truncate_eq.mpr hcanonical.title, MediaState.truncate_eq.mpr hcanonical.artist,
        MediaState.truncate_eq.mpr hcanonical.album, ← hgood.1, ← hgood.2]

theorem accepted_pointer {message : PointerMessage} (h : message.validate = .ok ()) :
    Accepted encodePointerLine message :=
  ⟨_, encodePointerLine_ok.mpr ⟨h, encodeLine_short (PointerMessage.length_line_le h)⟩⟩

theorem accepted_media {floats : Floats F64} {sequence : UInt64} {playback : String}
    {title artist album : Option String} {position duration : Option F64}
    {state : MediaState F64}
    (h : MediaState.new floats sequence playback title artist album position duration =
      .ok state) :
    Accepted (encodeMediaState floats) state ↔
      MediaState.lineSize floats sequence playback title artist album position duration ≤
        maxMessageBytes := by
  have hsize := MediaState.length_line_new h
  obtain ⟨hsequence, htimeline, hstate⟩ := MediaState.new_ok.mp h
  constructor
  · rintro ⟨line, hline⟩
    obtain ⟨-, -, hline⟩ := encodeMediaState_ok.mp hline
    obtain ⟨rfl, hle⟩ := encodeLine_ok hline
    rwa [← hsize]
  · intro hle
    have hshort := encodeLine_short (hsize ▸ hle)
    exact ⟨_, encodeMediaState_ok.mpr ⟨hstate ▸ hsequence, hstate ▸ htimeline, hshort⟩⟩

/-- **The messages.**  Whatever an encoder accepts is short and well framed; the
pointer messages, acknowledgements and audio frames read back, and the media
states that are `Canonical`.  The encoders take the values of the constructors,
but only the media states whose line is short enough. -/
theorem messages_read_back (serde : Serde F32 F64) (hfaith : serde.Faithful) :
    (∀ message, Framed encodePointerLine message ∧
      ReadsBack encodePointerLine (decodePointerLine serde) message) ∧
    (∀ ack, Framed encodeAckLine ack ∧ ReadsBack encodeAckLine (decodeAckLine serde) ack) ∧
    (∀ frame, Framed (encodeAudioFrame serde.f32) frame ∧
      ReadsBack (encodeAudioFrame serde.f32) (decodeAudioFrame serde) frame) ∧
    (∀ state, Framed (encodeMediaState serde.f64) state ∧
      (Accepted (encodeMediaState serde.f64) state →
        (ReadsBack (encodeMediaState serde.f64) (decodeMediaState serde) state ↔
          state.Canonical))) ∧
    (∀ sequence phase x y message, phase.isButton = false →
      PointerMessage.fromNormalized serde.f64 sequence phase x y = .ok message →
      Accepted encodePointerLine message) ∧
    (∀ sequence phase button x y message,
      PointerMessage.buttonEvent serde.f64 sequence phase button x y = .ok message →
      Accepted encodePointerLine message) ∧
    (∀ sequence ack, InputAck.new sequence = .ok ack → Accepted encodeAckLine ack) ∧
    (∀ sequence left right frame, AudioFrame.new serde.f32 sequence left right = .ok frame →
      Accepted (encodeAudioFrame serde.f32) frame) ∧
    (∀ sequence playback title artist album position duration state,
      MediaState.new serde.f64 sequence playback title artist album position duration =
        .ok state →
      (Accepted (encodeMediaState serde.f64) state ↔
        MediaState.lineSize serde.f64 sequence playback title artist album position duration ≤
          maxMessageBytes)) := by
  refine ⟨fun message => ⟨framed_of fun line h => (encodePointerLine_ok.mp h).2,
      readsBack_pointer hfaith message⟩,
    fun ack => ⟨framed_of fun line h => (encodeAckLine_ok.mp h).2, readsBack_ack hfaith ack⟩,
    fun frame => ⟨framed_of fun line h => (encodeAudioFrame_ok.mp h).2.2.2.2,
      readsBack_audio hfaith frame⟩,
    fun state => ⟨framed_of fun line h => (encodeMediaState_ok.mp h).2.2, ?_⟩,
    ?_, ?_, ?_, ?_, fun _ _ _ _ _ _ _ _ h => accepted_media h⟩
  · rintro ⟨line, hline⟩
    constructor
    · intro hback
      exact (decode_media hfaith hline).mp (hback line hline)
    · intro hcanonical line' hline'
      exact (decode_media hfaith hline').mpr hcanonical
  · intro sequence phase x y message hphase h
    obtain ⟨hsequence, rfl⟩ := PointerMessage.fromNormalized_ok h
    exact accepted_pointer (PointerMessage.validate_ok.mpr ⟨rfl, rfl, hsequence, hphase⟩)
  · intro sequence phase button x y message h
    obtain ⟨hphase, hsequence, rfl⟩ := PointerMessage.buttonEvent_ok h
    exact accepted_pointer (PointerMessage.validate_ok.mpr ⟨rfl, rfl, hsequence, hphase⟩)
  · intro sequence ack h
    have hvalid : ack.validate = .ok () := by
      rw [InputAck.new] at h
      split at h
      next => cases h
      next hsequence =>
        obtain rfl := Except.ok.inj h
        exact InputAck.validate_ok.mpr ⟨rfl, rfl, hsequence⟩
    exact ⟨_, encodeAckLine_ok.mpr ⟨hvalid, encodeLine_short (InputAck.length_line_le hvalid)⟩⟩
  · intro sequence left right frame h
    obtain ⟨hsequence, hbands, rfl⟩ := AudioFrame.new_ok.mp h
    have hshort := @AudioFrame.length_line_le F32 serde.f32 hfaith.f32
      ⟨version, "audio_bands", sequence, left, right⟩ rfl rfl hbands
    exact ⟨_, encodeAudioFrame_ok.mpr ⟨rfl, rfl, hsequence, hbands, encodeLine_short hshort⟩⟩

end ReadBack

/-! ## Examples -/

/-- The quarters from zero to one. -/
inductive Quarter
  | zero | one | two | three | four

def quarters : Floats Quarter where
  value
    | .zero => some 0
    | .one => some (mkRat 1 4)
    | .two => some (mkRat 1 2)
    | .three => some (mkRat 3 4)
    | .four => some 1
  text
    | .zero => some ⟨['0', '.', '0'], by decide⟩
    | .one => some ⟨['0', '.', '2', '5'], by decide⟩
    | .two => some ⟨['0', '.', '5'], by decide⟩
    | .three => some ⟨['0', '.', '7', '5'], by decide⟩
    | .four => some ⟨['1', '.', '0'], by decide⟩
  ofNumber
    | .float ⟨['0', '.', '0'], _⟩ => some .zero
    | .float ⟨['0', '.', '2', '5'], _⟩ => some .one
    | .float ⟨['0', '.', '5'], _⟩ => some .two
    | .float ⟨['0', '.', '7', '5'], _⟩ => some .three
    | .float ⟨['1', '.', '0'], _⟩ => some .four
    | _ => none
  scaled
    | .zero => 0
    | .one => 16384
    | .two => 32768
    | .three => 49151
    | .four => 65535

theorem quarters_faithful : quarters.Faithful := by
  intro x _
  cases x <;> exact ⟨_, rfl, by decide, rfl⟩

def quartersSerde : Serde Quarter Quarter := ⟨Json.ofBytes, quarters, quarters⟩

theorem quartersSerde_faithful : quartersSerde.Faithful :=
  ⟨quarters_faithful, quarters_faithful, fun _ _ _ => Json.ofBytes_toBytes _⟩

/-- A pointer in the middle of the lower edge. -/
theorem messages_read_back_pointer :
    ∃ line, encodePointerLine ⟨1, "pointer_position", 7, .move, 32768, 65535, none⟩ = .ok line ∧
      decodePointerLine quartersSerde line =
        .ok ⟨1, "pointer_position", 7, .move, 32768, 65535, none⟩ := by
  have h := messages_read_back quartersSerde quartersSerde_faithful
  obtain ⟨line, hline⟩ := h.2.2.2.2.1 7 .move .two .four _ rfl rfl
  exact ⟨line, hline, (h.1 _).2 line hline⟩

/-- A state of another version is encoded, and the titles of `MediaState::new`
can be too long for a line. -/
theorem media_states_fail :
    (¬ ∀ state, ReadsBack (encodeMediaState quartersSerde.f64) (decodeMediaState quartersSerde)
      state) ∧
    ¬ ∀ sequence playback title artist album position duration state,
      MediaState.new quartersSerde.f64 sequence playback title artist album position duration =
        .ok state →
      Accepted (encodeMediaState quartersSerde.f64) state := by
  constructor
  · intro h
    let state : MediaState Quarter := ⟨2, "media_state", 1, "playing", none, none, none, none, none⟩
    have htimeline : MediaState.Timeline quartersSerde.f64 "playing" none none :=
      ⟨by decide, by simp, by simp⟩
    have hshort : encodeLine (state.fields quartersSerde.f64) = .ok _ :=
      encodeLine_short (by decide +kernel)
    have hline : encodeMediaState quartersSerde.f64 state = .ok _ :=
      encodeMediaState_ok.mpr ⟨by decide, htimeline, hshort⟩
    have hcanonical := (decode_media quartersSerde_faithful hline).mp (h state _ hline)
    exact absurd hcanonical.version (by decide)
  · intro h
    have hwide : ∀ title : Option String,
        title = some (String.ofList (List.replicate 512 '日')) →
        MediaState.titleSize title = 1538 := by
      rintro title rfl
      have hchar : escapedSize '日' = 3 := by decide
      rw [MediaState.titleSize, String.toList_ofList, List.take_replicate, List.map_replicate,
        List.sum_replicate_nat, hchar]
      rfl
    obtain ⟨title, htitle⟩ :
        ∃ title, title = some (String.ofList (List.replicate 512 '日')) := ⟨_, rfl⟩
    have htimeline : MediaState.Timeline quartersSerde.f64 "playing" none none :=
      ⟨by decide, by simp, by simp⟩
    have hnew : MediaState.new quartersSerde.f64 1 "playing" title title title none none = .ok _ :=
      MediaState.new_ok.mpr ⟨by decide, htimeline, rfl⟩
    have hle := (accepted_media hnew).mp (h 1 "playing" title title title none none _ hnew)
    have hdigits : (Nat.toDigits 10 (1 : UInt64).toNat).length = 1 := by decide
    simp only [MediaState.lineSize, hwide title htitle, hdigits, MediaState.secondsSize,
      maxMessageBytes] at hle
    omega

end Kwe.Input
