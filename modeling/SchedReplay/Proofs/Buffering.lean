import Mathlib.Data.List.DropRight
import SchedReplay.Proofs.Rereading
import SchedReplay.Wire.Decoding

/-! Reading for a shape and reading the whole value. A tagged value is kept with all its members, so
that its reader and the general one agree on every text whose tag is in order. -/
namespace SchedReplay.Wire

open Json (Reader readValue readMembers readItems skipBlanks)

theorem skipBlanks_skipBlanks (text : List Char) : skipBlanks (skipBlanks text) = skipBlanks text :=
  List.dropWhile_idempotent _ _

/-- A value that does not nest reads the same at any depth. -/
theorem readValue_of_flat {fuel depth : Nat} {text : List Char}
    (array : ∀ rest, skipBlanks text ≠ '[' :: rest)
    (object : ∀ rest, skipBlanks text ≠ '\x7b' :: rest) :
    readValue .keep fuel depth text = readValue .keep fuel 0 (skipBlanks text) := by
  cases depth with
  | zero => rw [readValue, readValue, skipBlanks_skipBlanks]
  | succ depth =>
    rw [readValue, readValue, skipBlanks_skipBlanks]
    split <;> first | rfl | exact absurd ‹_› (array _) | exact absurd ‹_› (object _)

theorem bind_eq_ok {tried : Except ε α} {next : α → Except ε β} {result : β}
    (whole : tried.bind next = .ok result) :
    ∃ value, tried = .ok value ∧ next value = .ok result := by
  cases tried with
  | error => cases whole
  | ok value => exact ⟨value, rfl, whole⟩

section Nested

variable {fuel depth : Nat} {text tail rest : List Char} {value : Json}

theorem readValue_array (array : skipBlanks text = '[' :: tail) :
    readValue .keep fuel (depth + 1) text =
      match skipBlanks tail with
      | ']' :: rest => .ok (.arr [], rest)
      | _ => (readItems (readValue .keep fuel depth) fuel tail).bind fun (items, rest) =>
        .ok (.arr items, rest) := by
  rw [readValue, array]
  rfl

theorem readValue_object (object : skipBlanks text = '\x7b' :: tail) :
    readValue .keep fuel (depth + 1) text =
      match skipBlanks tail with
      | '\x7d' :: rest => .ok (.obj [], rest)
      | _ => (readMembers .keep (fun _ _ => Json.readBehindColon (readValue .keep fuel depth)) fuel
          [] tail).bind fun (members, rest) => .ok (.obj members, rest) := by
  rw [readValue, object]
  rfl

/-- A value that starts like an array is one. -/
theorem exists_items_of_readValue (array : skipBlanks text = '[' :: tail)
    (reads : readValue .keep fuel depth text = .ok (value, rest)) :
    ∃ items, value = .arr items := by
  cases depth with
  | zero =>
    rw [readValue, array] at reads
    cases reads
  | succ depth =>
    rw [readValue_array array] at reads
    split at reads
    · cases reads
      exact ⟨_, rfl⟩
    · obtain ⟨_, _, last⟩ := bind_eq_ok reads
      cases last
      exact ⟨_, rfl⟩

theorem exists_members_of_readValue (object : skipBlanks text = '\x7b' :: tail)
    (reads : readValue .keep fuel depth text = .ok (value, rest)) :
    ∃ members, value = .obj members := by
  cases depth with
  | zero =>
    rw [readValue, object] at reads
    cases reads
  | succ depth =>
    rw [readValue_object object] at reads
    split at reads
    · cases reads
      exact ⟨_, rfl⟩
    · obtain ⟨_, _, last⟩ := bind_eq_ok reads
      cases last
      exact ⟨_, rfl⟩

end Nested

/-- A text where a value is read is the text of that value, or is refused. -/
theorem text_of_readValue {fuel depth : Nat} {text rest : List Char} {value : Json}
    (reads : readValue .keep fuel depth text = .ok (value, rest)) :
    Shape.text fuel text =
      if (string? value).isSome then .ok (value, rest) else .error .unexpected := by
  unfold Shape.text Shape.scalar
  split
  · next array =>
    obtain ⟨items, rfl⟩ := exists_items_of_readValue array reads
    rfl
  · next object =>
    obtain ⟨members, rfl⟩ := exists_members_of_readValue object reads
    rfl
  · next array object =>
    rw [readValue_of_flat array object] at reads
    rw [reads]
    rfl

theorem behindColon_of_readValue {fuel depth : Nat} {text rest : List Char} {value : Option Json}
    (reads : Json.readBehindColon (readValue .keep fuel depth) text = .ok (value, rest)) :
    ∃ content, value = some content ∧ Json.readBehindColon (Shape.text fuel) text =
      if (string? content).isSome then .ok (value, rest) else .error .unexpected := by
  obtain ⟨behind, marked, reads⟩ := bind_eq_ok reads
  obtain ⟨⟨content, left⟩, reads, same⟩ := bind_eq_ok reads
  cases same
  refine ⟨content, rfl, ?_⟩
  rw [Json.readBehindColon, marked, Json.ok_bind, text_of_readValue reads]
  split <;> rfl

/-- Members in which the tag, unless it was seen before, comes once at most and is a text. -/
def InOrder (tagName : String) : List String → List (String × Json) → Prop
  | _, [] => True
  | seen, (name, value) :: members =>
    (name = tagName → tagName ∉ seen ∧ (string? value).isSome) ∧
      InOrder tagName (name :: seen) members

/-- Reading behind the name of one member. -/
theorem member_of_readValue {tagName name : String} {fuel : Nat} {seen : List String}
    {text rest : List Char} {value : Option Json}
    (reads : Json.readBehindColon (Shape.inner fuel) text = .ok (value, rest)) :
    ∃ content, value = some content ∧
      if name = tagName → tagName ∉ seen ∧ (string? content).isSome then
        Shape.member tagName fuel seen name text = .ok (value, rest)
      else ∃ fault, Shape.member tagName fuel seen name text = .error fault := by
  obtain ⟨content, rfl, textual⟩ := behindColon_of_readValue reads
  refine ⟨content, rfl, ?_⟩
  by_cases tag : name = tagName
  · subst tag
    cases known : seen.contains name with
    | true => simp_all [Shape.member]
    | false =>
      have unseen : name ∉ seen := by simpa using known
      cases written : (string? content).isSome with
      | true => simp [Shape.member, unseen, textual, written]
      | false => simp [Shape.member, unseen, textual, written]
  · simp [Shape.member, tag, reads]

section Members

variable {readRest : List String → String → Reader (Option Json)} {count : Nat} {seen : List String}
  {text behind named left rest : List Char} {name : String}
  (marked : Json.expectMark '"' text = .ok behind)
  (quoted : Json.readString .keep (count + 1) behind = .ok (name, named))

include marked quoted

theorem readMembers_last_member {content : Json}
    (valued : readRest seen name named = .ok (some content, left))
    (closed : skipBlanks left = '\x7d' :: rest) :
    readMembers .keep readRest (count + 1) seen text = .ok ([(name, content)], rest) := by
  rw [readMembers, marked, Json.ok_bind, quoted, Json.ok_bind]
  simp only [valued, Json.ok_bind, closed]
  rfl

theorem readMembers_more {content : Json} {members : List (String × Json)} {behindComma : List Char}
    (valued : readRest seen name named = .ok (some content, left))
    (comma : skipBlanks left = ',' :: behindComma)
    (others : readMembers .keep readRest count (name :: seen) behindComma = .ok (members, rest)) :
    readMembers .keep readRest (count + 1) seen text = .ok ((name, content) :: members, rest) := by
  rw [readMembers, marked, Json.ok_bind, quoted, Json.ok_bind]
  simp only [valued, Json.ok_bind, comma, others]
  rfl

theorem readMembers_of_error {fault : Json.Fault}
    (valued : readRest seen name named = .error fault) :
    readMembers .keep readRest (count + 1) seen text = .error fault := by
  rw [readMembers, marked, Json.ok_bind, quoted, Json.ok_bind]
  simp only [valued]
  rfl

theorem readMembers_more_of_error {content : Json} {behindComma : List Char} {fault : Json.Fault}
    (valued : readRest seen name named = .ok (some content, left))
    (comma : skipBlanks left = ',' :: behindComma)
    (others : readMembers .keep readRest count (name :: seen) behindComma = .error fault) :
    readMembers .keep readRest (count + 1) seen text = .error fault := by
  rw [readMembers, marked, Json.ok_bind, quoted, Json.ok_bind]
  simp only [valued, Json.ok_bind, comma, others]
  rfl

end Members

/-- The members of a tagged value are read as those of any object, if the tag is in order. -/
theorem readMembers_member (tagName : String) {fuel count : Nat} {seen : List String}
    {text rest : List Char} {members : List (String × Json)}
    (reads : readMembers .keep (fun _ _ => Json.readBehindColon (Shape.inner fuel)) count seen
      text = .ok (members, rest)) :
    (InOrder tagName seen members ∧
        readMembers .keep (Shape.member tagName fuel) count seen text = .ok (members, rest)) ∨
      (¬ InOrder tagName seen members ∧
        ∃ fault, readMembers .keep (Shape.member tagName fuel) count seen text = .error fault) := by
  induction count generalizing seen text members with
  | zero => cases reads
  | succ count ih =>
    obtain ⟨behind, marked, reads⟩ := bind_eq_ok reads
    obtain ⟨⟨name, named⟩, quoted, reads⟩ := bind_eq_ok reads
    obtain ⟨⟨value, left⟩, valued, reads⟩ := bind_eq_ok reads
    obtain ⟨content, rfl, tags⟩ :=
      @member_of_readValue tagName name fuel seen named left value valued
    simp only [Option.map_some, Option.toList_some] at reads
    by_cases proper : name = tagName → tagName ∉ seen ∧ (string? content).isSome
    · rw [if_pos proper] at tags
      split at reads
      · next closed =>
        cases reads
        exact .inl ⟨⟨proper, trivial⟩, readMembers_last_member marked quoted tags closed⟩
      · next comma =>
        obtain ⟨⟨members, last⟩, others, same⟩ := bind_eq_ok reads
        cases same
        rcases ih others with ⟨ordered, more⟩ | ⟨disordered, fault, stops⟩
        · exact .inl ⟨⟨proper, ordered⟩, readMembers_more marked quoted tags comma more⟩
        · refine .inr ⟨fun ordered => disordered ordered.2, fault, ?_⟩
          exact readMembers_more_of_error marked quoted tags comma stops
      · cases reads
      · cases reads
    · rw [if_neg proper] at tags
      obtain ⟨fault, stops⟩ := tags
      have first : ∃ more, members = (name, content) :: more := by
        split at reads
        · cases reads
          exact ⟨[], rfl⟩
        · obtain ⟨_, _, same⟩ := bind_eq_ok reads
          cases same
          exact ⟨_, rfl⟩
        · cases reads
        · cases reads
      obtain ⟨more, rfl⟩ := first
      exact .inr ⟨fun ordered => proper ordered.1, fault, readMembers_of_error marked quoted stops⟩

section Items

variable {item : Reader Json} {count : Nat} {text left rest : List Char} {value : Json}
  (valued : item text = .ok (value, left))

include valued

theorem readItems_last_item (closed : skipBlanks left = ']' :: rest) :
    readItems item (count + 1) text = .ok ([value], rest) := by
  rw [readItems, valued, Json.ok_bind]
  simp only [closed]

theorem readItems_more {items : List Json} {behindComma : List Char}
    (comma : skipBlanks left = ',' :: behindComma)
    (others : readItems item count behindComma = .ok (items, rest)) :
    readItems item (count + 1) text = .ok (value :: items, rest) := by
  rw [readItems, valued, Json.ok_bind]
  simp only [comma, others]
  rfl

end Items

/-- The items of an array are one item and those behind a comma, if any. -/
theorem readItems_eq_ok {item : Reader Json} {fuel : Nat} {text rest : List Char}
    {items : List Json} (reads : readItems item fuel text = .ok (items, rest)) :
    ∃ count value left others, fuel = count + 1 ∧ items = value :: others ∧
      item text = .ok (value, left) ∧
        ((others = [] ∧ skipBlanks left = ']' :: rest) ∨
          ∃ behind, skipBlanks left = ',' :: behind ∧
            readItems item count behind = .ok (others, rest)) := by
  cases fuel with
  | zero => cases reads
  | succ count =>
    obtain ⟨⟨value, left⟩, valued, reads⟩ := bind_eq_ok reads
    simp only at reads
    split at reads
    · next closed =>
      cases reads
      exact ⟨count, value, left, [], rfl, rfl, valued, .inl ⟨rfl, closed⟩⟩
    · next behind comma =>
      obtain ⟨⟨others, last⟩, more, same⟩ := bind_eq_ok reads
      cases same
      exact ⟨count, value, left, others, rfl, rfl, valued, .inr ⟨behind, comma, more⟩⟩
    · cases reads
    · cases reads

/-- More fuel reads the same items. -/
theorem readItems_succ {item : Reader Json} {fuel : Nat} {text rest : List Char} {items : List Json}
    (reads : readItems item fuel text = .ok (items, rest)) :
    readItems item (fuel + 1) text = .ok (items, rest) := by
  induction fuel generalizing text items with
  | zero => cases reads
  | succ fuel ih =>
    obtain ⟨count, value, left, others, same, rfl, valued, follows⟩ := readItems_eq_ok reads
    obtain rfl := Nat.succ.inj same
    rcases follows with ⟨rfl, closed⟩ | ⟨behind, comma, more⟩
    · exact readItems_last_item valued closed
    · exact readItems_more valued comma (ih more)

theorem inOrder_of_filter {tagName : String} {seen : List String} {members : List (String × Json)}
    (unseen : tagName ∈ seen → members.filter (·.1 == tagName) = [])
    (single : (members.filter (·.1 == tagName)).length ≤ 1)
    (textual : ∀ member ∈ members, member.1 = tagName → (string? member.2).isSome) :
    InOrder tagName seen members := by
  induction members generalizing seen with
  | nil => trivial
  | cons member members ih =>
    obtain ⟨name, value⟩ := member
    have rest := fun member inside => textual member (.tail _ inside)
    by_cases tag : name = tagName
    · subst tag
      simp only [List.filter_cons, beq_self_eq_true, ↓reduceIte, List.length_cons] at unseen single
      have none : members.filter (·.1 == name) = [] := List.length_eq_zero_iff.mp (by omega)
      refine ⟨fun _ => ⟨fun known => by simpa using unseen known, textual _ (.head _) rfl⟩, ?_⟩
      exact ih (fun _ => none) (by omega) rest
    · simp only [List.filter_cons, beq_eq_false_iff_ne.mpr tag, Bool.false_eq_true, ↓reduceIte]
        at unseen single
      refine ⟨fun is => absurd is tag, ih (fun known => unseen ?_) single rest⟩
      exact (List.mem_cons.mp known).resolve_left (Ne.symm tag)

theorem variantName?_outermost {names : List String} {tag : Json} {name : String}
    (means : variantName? .outermost names tag = some name) : tag = .str name := by
  cases tag with
  | str => exact congrArg Json.str (Option.some.inj means)
  | num number => cases number <;> simp [variantName?] at means
  | null | bool | arr | obj => cases means

theorem inOrder_of_tagged? {tagName name : String} {names : List String} {body : Json}
    {members : List (String × Json)}
    (means : tagged? .outermost tagName names (.obj members) = some (name, body)) :
    InOrder tagName [] members := by
  obtain ⟨⟨tag, rest⟩, untagged, means⟩ := Option.bind_eq_some_iff.mp means
  obtain ⟨variant, named, _⟩ := Option.bind_eq_some_iff.mp means
  obtain rfl := variantName?_outermost named
  simp only [untag?] at untagged
  split at untagged
  · next key _ found =>
    cases untagged
    refine inOrder_of_filter (by simp) (by simp [found]) fun member inside is => ?_
    have among : member ∈ members.filter (·.1 == tagName) := by simpa [is] using inside
    rw [found, List.mem_singleton] at among
    rw [among]
    rfl
  · cases untagged

theorem nothing_eq_error (fuel : Nat) (text : List Char) :
    ∃ fault, Shape.nothing fuel text = .error fault := by
  unfold Shape.nothing Shape.scalar
  split
  · exact ⟨_, rfl⟩
  · exact ⟨_, rfl⟩
  · cases readValue .keep fuel 0 (skipBlanks text) with
    | error fault => exact ⟨fault, rfl⟩
    | ok value => exact ⟨_, rfl⟩

/-- A value that does not nest has no tag. -/
theorem untag?_of_flat {fuel : Nat} {text rest : List Char} {value : Json}
    (reads : readValue .keep fuel 0 text = .ok (value, rest)) (tagName : String) :
    untag? tagName value = none := by
  rw [readValue] at reads
  split at reads
  case h_6 | h_7 => cases reads
  case h_9 =>
    split at reads
    · obtain ⟨_, _, last⟩ := bind_eq_ok reads
      cases last
      rfl
    · cases reads
  all_goals
    first
    | cases reads
    | obtain ⟨_, _, last⟩ := bind_eq_ok reads
      cases last
      rfl

/-- An array with a tag in front. -/
theorem tagged_items_of_readItems {tagName : String} {fuel : Nat} {text tail rest : List Char}
    {items : List Json} (array : skipBlanks text = '[' :: tail)
    (begun : ∀ rest, skipBlanks tail ≠ ']' :: rest)
    (reads : readItems (Shape.inner fuel) fuel tail = .ok (items, rest)) :
    Shape.tagged tagName fuel text = .ok (.arr items, rest) ∨
      ((∃ fault, Shape.tagged tagName fuel text = .error fault) ∧
        ∀ names, tagged? .outermost tagName names (.arr items) = none) := by
  obtain ⟨count, tag, left, others, enough, rfl, valued, follows⟩ := readItems_eq_ok reads
  have textual := text_of_readValue valued
  have starts : Shape.tagged tagName fuel text = (Shape.text fuel tail).bind fun tag =>
      match skipBlanks tag.2 with
      | ']' :: rest => .ok (.arr [tag.1], rest)
      | _ => (Json.expectMark ',' tag.2).bind fun rest =>
        (readItems (Shape.inner fuel) fuel rest).bind fun (items, rest) =>
          .ok (.arr (tag.1 :: items), rest) := by
    unfold Shape.tagged
    rw [array]
    simp only
    rfl
  rw [starts, textual]
  cases written : (string? tag).isSome with
  | false =>
    refine .inr ⟨⟨.unexpected, rfl⟩, fun names => Option.eq_none_iff_forall_ne_some.mpr ?_⟩
    intro means tagged
    obtain ⟨name, named, _⟩ := Option.bind_eq_some_iff.mp tagged
    rw [variantName?_outermost named] at written
    cases written
  | true =>
    left
    rcases follows with ⟨rfl, closed⟩ | ⟨behind, comma, more⟩
    · simp [Except.bind, closed]
    · have marked : Json.expectMark ',' left = .ok behind := by simp [Json.expectMark, comma]
      have items := readItems_succ more
      rw [← enough] at items
      simp [Except.bind, comma, marked, items]

/-- An object with a tag among its members. -/
theorem tagged_members_of_readMembers {tagName : String} {fuel : Nat} {text tail rest : List Char}
    {members : List (String × Json)} (object : skipBlanks text = '\x7b' :: tail)
    (begun : ∀ rest, skipBlanks tail ≠ '\x7d' :: rest)
    (reads : readMembers .keep (fun _ _ => Json.readBehindColon (Shape.inner fuel)) fuel [] tail =
      .ok (members, rest)) :
    Shape.tagged tagName fuel text = .ok (.obj members, rest) ∨
      ((∃ fault, Shape.tagged tagName fuel text = .error fault) ∧
        ∀ names, tagged? .outermost tagName names (.obj members) = none) := by
  have starts : Shape.tagged tagName fuel text =
      (readMembers .keep (Shape.member tagName fuel) fuel [] tail).bind fun (members, rest) =>
        .ok (.obj members, rest) := by
    unfold Shape.tagged
    rw [object]
    simp only
    rfl
  rw [starts]
  rcases readMembers_member tagName reads with ⟨_, same⟩ | ⟨disordered, fault, stops⟩
  · exact .inl (by simp [same, Except.bind])
  · refine .inr ⟨⟨fault, by simp [stops, Except.bind]⟩, fun names => ?_⟩
    refine Option.eq_none_iff_forall_ne_some.mpr fun _ tagged => ?_
    exact disordered (inOrder_of_tagged? tagged)

theorem tagged_of_readValue (tagName : String) {fuel : Nat} {text rest : List Char} {value : Json}
    (reads : readValue .keep fuel Json.maxDepth text = .ok (value, rest)) :
    Shape.tagged tagName fuel text = .ok (value, rest) ∨
      ((∃ fault, Shape.tagged tagName fuel text = .error fault) ∧
        ∀ names, tagged? .outermost tagName names value = none) := by
  by_cases array : ∃ tail, skipBlanks text = '[' :: tail
  · obtain ⟨tail, array⟩ := array
    have whole := (readValue_array array).symm.trans reads
    split at whole
    · next closed =>
      cases whole
      left
      simp [Shape.tagged, array, closed]
    · next begun =>
      obtain ⟨⟨items, last⟩, inside, same⟩ := bind_eq_ok whole
      cases same
      exact tagged_items_of_readItems array begun inside
  by_cases object : ∃ tail, skipBlanks text = '\x7b' :: tail
  · obtain ⟨tail, object⟩ := object
    have whole := (readValue_object object).symm.trans reads
    split at whole
    · next closed =>
      cases whole
      left
      simp [Shape.tagged, object, closed]
    · next begun =>
      obtain ⟨⟨members, last⟩, inside, same⟩ := bind_eq_ok whole
      cases same
      exact tagged_members_of_readMembers object begun inside
  rw [readValue_of_flat (not_exists.mp array) (not_exists.mp object)] at reads
  refine .inr ⟨?_, fun names => by simp [tagged?, untag?_of_flat reads]⟩
  have refused : Shape.tagged tagName fuel text = Shape.nothing fuel (skipBlanks text) := by
    unfold Shape.tagged
    split
    · next tail is => exact absurd ⟨tail, is⟩ array
    · next tail is => exact absurd ⟨tail, is⟩ object
    · rfl
  rw [refused]
  exact nothing_eq_error fuel _

/-- A text that holds one value is decoded as that value is, if a tag is needed for it. -/
theorem decode_eq_ok_iff {tagName : String} {ofJson? : Json → Option α} {text : String}
    {value : Json} (parses : Json.parse text = .ok value)
    (tagged : (∀ names, tagged? .outermost tagName names value = none) → ofJson? value = none)
    (message : α) :
    decode (.tagged tagName) ofJson? text = .ok message ↔ ofJson? value = some message := by
  obtain ⟨⟨found, rest⟩, reads, parses⟩ := bind_eq_ok parses
  obtain ⟨_, ends, same⟩ := bind_eq_ok parses
  cases same
  rcases tagged_of_readValue tagName reads with shaped | ⟨⟨fault, refused⟩, untagged⟩
  · rw [decode, shaped, Json.ok_bind]
    simp only
    cases ofJson? value with
    | none => simp
    | some other => simp [ends, pure, Except.pure]
  · rw [decode, refused, tagged untagged]
    simp [bind, Except.bind]

end SchedReplay.Wire
