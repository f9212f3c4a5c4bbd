import SchedReplay.CommandLine.Performance
import SchedReplay.Proofs.Unambiguity

/-! Updates for programs lose nothing: an update stands on a line of its own, and the line tells it
apart from every other. -/
namespace SchedReplay

namespace Json

/-- An encoding that tells all values apart, also from an absent one. -/
structure Faithful (encode : α → Json) : Prop where
  plain : ∀ value, Plain (encode value)
  injective : Function.Injective encode
  present : ∀ value, encode value ≠ .null

theorem faithful_str : Faithful Json.str :=
  ⟨fun _ => .str, fun _ _ same => Json.str.inj same, nofun⟩

theorem faithful_ofNat : Faithful Json.ofNat :=
  ⟨fun _ => .num, fun _ _ same => Number.natural.inj (Json.num.inj same), nofun⟩

namespace Faithful

variable {encode : α → Json} (faithful : Faithful encode)

include faithful

theorem comp {part : β → α} (injective : Function.Injective part) : Faithful (encode ∘ part) :=
  ⟨fun _ => faithful.plain _, faithful.injective.comp injective, fun _ => faithful.present _⟩

theorem ofOption_inj {first second : Option α} :
    ofOption encode first = ofOption encode second ↔ first = second := by
  cases first with
  | none =>
    cases second with
    | none => simp
    | some value => simp [ofOption, (faithful.present value).symm]
  | some value =>
    cases second with
    | none => simp [ofOption, faithful.present value]
    | some other => simp [ofOption, faithful.injective.eq_iff]

theorem ofList_inj {first second : List α} :
    ofList encode first = ofList encode second ↔ first = second := by
  rw [ofList, ofList, Json.arr.injEq, List.map_inj_right faithful.injective]

end Faithful

end Json

open Json

theorem MachineId.faithful : Faithful MachineId.toJson :=
  faithful_ofNat.comp fun ⟨_⟩ ⟨_⟩ same => congrArg _ (UInt64.toNat_inj.mp same)

theorem ContextId.faithful : Faithful ContextId.toJson :=
  faithful_ofNat.comp fun ⟨_⟩ ⟨_⟩ same => congrArg _ (UInt32.toNat_inj.mp same)

theorem UnitId.faithful : Faithful UnitId.toJson :=
  faithful_ofNat.comp fun ⟨_⟩ ⟨_⟩ same => congrArg _ (UInt64.toNat_inj.mp same)

theorem WorkUnit.faithful : Faithful WorkUnit.toJson where
  plain unit := by simp [toJson, members, UnitId.faithful.plain]
  injective := by
    rintro ⟨_, _⟩ ⟨_, _⟩ same
    simpa [toJson, members, UnitId.faithful.injective.eq_iff] using same
  present := nofun

theorem ParkedUnit.faithful : Faithful ParkedUnit.toJson where
  plain parked := by
    simp [toJson, WorkUnit.members, UnitId.faithful.plain, or_imp, forall_and]
  injective := by
    rintro ⟨⟨_, _⟩, _⟩ ⟨⟨_, _⟩, _⟩ same
    simpa [toJson, WorkUnit.members, UnitId.faithful.injective.eq_iff, and_assoc] using same
  present := nofun

theorem Context.faithful : Faithful Context.toJson where
  plain context := by
    simp [toJson, ContextId.faithful.plain, Plain.ofOption WorkUnit.faithful.plain,
      Plain.ofList WorkUnit.faithful.plain]
  injective := by
    rintro ⟨_, _, _⟩ ⟨_, _, _⟩ same
    simpa [toJson, ContextId.faithful.injective.eq_iff, WorkUnit.faithful.ofOption_inj,
      WorkUnit.faithful.ofList_inj] using same
  present := nofun

theorem Thread.faithful : Faithful Thread.toJson where
  plain thread := by
    simp [toJson, Plain.ofOption MachineId.faithful.plain, Plain.ofOption Context.faithful.plain,
      Plain.ofOption WorkUnit.faithful.plain]
  injective := by
    rintro ⟨_, _, _, _⟩ ⟨_, _, _, _⟩ same
    simpa [toJson, MachineId.faithful.ofOption_inj, Context.faithful.ofOption_inj,
      WorkUnit.faithful.ofOption_inj] using same
  present := nofun

theorem Model.faithful : Faithful Model.toJson where
  plain model := by
    simp [toJson, Plain.ofList Thread.faithful.plain, Plain.ofList ParkedUnit.faithful.plain]
  injective := by
    rintro ⟨_, _⟩ ⟨_, _⟩ same
    simpa [toJson, Thread.faithful.ofList_inj, ParkedUnit.faithful.ofList_inj] using same
  present := nofun

theorem Changes.faithful : Faithful Changes.toJson where
  plain changes := by simp [toJson, Plain.ofList MachineId.faithful.plain]
  injective := by
    rintro ⟨_, _, _⟩ ⟨_, _, _⟩ same
    simpa [toJson, MachineId.faithful.ofList_inj] using same
  present := nofun

theorem Snapshot.faithful : Faithful Snapshot.toJson where
  plain snapshot := by
    simp [toJson, members, faithful_ofNat.plain, Model.faithful.plain, Changes.faithful.plain]
  injective := by
    rintro ⟨_, _, _⟩ ⟨_, _, _⟩ same
    simpa [toJson, members, faithful_ofNat.injective.eq_iff, Model.faithful.injective.eq_iff,
      Changes.faithful.injective.eq_iff] using same
  present := nofun

theorem Event.Progress.faithful : Faithful Event.Progress.toJson where
  plain event := by
    simp [toJson, members, faithful_ofNat.plain, MachineId.faithful.plain, UnitId.faithful.plain,
      Plain.ofOption faithful_str.plain]
  injective := by
    rintro ⟨_, _, _, _, _⟩ ⟨_, _, _, _, _⟩ same
    simpa [toJson, members, faithful_ofNat.injective.eq_iff, MachineId.faithful.injective.eq_iff,
      UnitId.faithful.injective.eq_iff, UInt32.toNat_inj, faithful_str.ofOption_inj] using same
  present := nofun

theorem Update.plain_toJson (update : Update) : Plain update.toJson := by
  cases update with
  | committed snapshot => simpa [toJson] using plain_obj.mp (Snapshot.faithful.plain snapshot)
  | progress event => simpa [toJson] using plain_obj.mp (Event.Progress.faithful.plain event)
  | reset => simp [toJson]

/-- The tag tells the kinds of updates apart. -/
theorem Update.toJson_injective : Function.Injective toJson := by
  intro first second same
  cases first with
  | committed snapshot =>
    cases second with
    | committed other =>
      have members : snapshot.members = other.members := by simpa [toJson] using same
      exact congrArg committed (Snapshot.faithful.injective (congrArg Json.obj members))
    | progress event => simp [toJson] at same
    | reset => simp [toJson] at same
  | progress event =>
    cases second with
    | committed snapshot => simp [toJson] at same
    | progress other =>
      have members : event.members = other.members := by simpa [toJson] using same
      exact congrArg progress (Event.Progress.faithful.injective (congrArg Json.obj members))
    | reset => simp [toJson] at same
  | reset =>
    cases second with
    | committed snapshot => simp [toJson] at same
    | progress event => simp [toJson] at same
    | reset => rfl

/-! ### Lines -/

theorem Json.Printable.unmarked {text : List Char} (printable : Printable text) :
    ∀ c ∈ text, c ≠ '\n' ∧ c ≠ '\r' := by
  intro c inside
  have visible := printable c inside
  constructor
  · rintro rfl
    contradiction
  · rintro rfl
    contradiction

namespace Renderer

variable {renderer : Renderer}

theorem render_of_json (json : renderer.format = .json) (update : Update) :
    renderer.render update = update.toJson.render := by
  unfold render
  rw [json]

theorem printable_render (json : renderer.format = .json) (update : Update) :
    Printable (renderer.render update).toList := by
  rw [render_of_json json, Json.render, String.toList_ofList]
  exact update.plain_toJson.printable

theorem render_injective (json : renderer.format = .json) : Function.Injective renderer.render := by
  intro first second same
  rw [render_of_json json, render_of_json json] at same
  exact Update.toJson_injective (render_inj first.plain_toJson second.plain_toJson same)

theorem stdout_printUpdates (updates : List Update) (exitCode : UInt32) :
    (Performance.stdout ⟨CommandLine.printUpdates renderer (some updates), exitCode⟩).toList =
      updates.flatMap fun update => (renderer.render update).toList ++ ['\n'] := by
  simp [Performance.stdout, CommandLine.printUpdates, List.flatMap_map]

theorem charLines_stdout (json : renderer.format = .json) (updates : List Update)
    (exitCode : UInt32) :
    Text.charLines
        (Performance.stdout ⟨CommandLine.printUpdates renderer (some updates), exitCode⟩).toList =
      updates.map fun update => (renderer.render update).toList := by
  rw [stdout_printUpdates]
  induction updates with
  | nil => rfl
  | cons update updates ih =>
    rw [List.flatMap_cons, List.append_assoc, List.map_cons, ← ih]
    exact Text.lines_append_end (printable_render json update).unmarked _

/-- Updates rendered for programs hold no control character, stand on one line each of what is
printed, and are told apart by their renderings. -/
theorem json_renderings_are_lines_that_lose_nothing (source : Option (List (List Char))) :
    let renderer : Renderer := ⟨.json, source⟩
    (∀ update, ∀ c ∈ (renderer.render update).toList, 0x20 ≤ c.toNat) ∧
    (∀ updates exitCode,
      Text.charLines
          (Performance.stdout ⟨CommandLine.printUpdates renderer (some updates), exitCode⟩).toList =
        updates.map fun update => (renderer.render update).toList) ∧
    ∀ first second, renderer.render first = renderer.render second → first = second := by
  intro renderer
  have json : renderer.format = .json := rfl
  exact ⟨printable_render json, charLines_stdout json, fun _ _ same => render_injective json same⟩

/-- The two steps differ in nothing but the name of the file, which one of them lacks. -/
theorem json_renderings_are_lines_that_lose_nothing_of_missing_name :
    let renderer : Renderer := ⟨.json, none⟩
    let unnamed : Update := .progress ⟨⟨0⟩, ⟨1⟩, 9, none, none⟩
    let named : Update := .progress ⟨⟨0⟩, ⟨1⟩, 9, some "a\nb", none⟩
    (renderer.render named = "\x7b\"update\":\"progress\",\"machine\":0,\"unit\":1,\"line\":9," ++
        "\"file\":\"a\\nb\",\"function\":null\x7d") ∧
      ('\\' ∈ (renderer.render named).toList ∧ 0x20 ≤ '\\'.toNat) ∧
      Text.charLines
          (Performance.stdout ⟨CommandLine.printUpdates renderer (some [unnamed, named]), 0⟩).toList =
        [(renderer.render unnamed).toList, (renderer.render named).toList] ∧
      renderer.render unnamed ≠ renderer.render named := by
  intro renderer unnamed named
  obtain ⟨visible, lines, apart⟩ := json_renderings_are_lines_that_lose_nothing none
  have written : '\\' ∈ (renderer.render named).toList := by decide +kernel
  have different : unnamed ≠ named := by decide
  refine ⟨by decide +kernel, ⟨written, visible named _ written⟩, lines [unnamed, named] 0, ?_⟩
  intro same
  exact different (apart unnamed named same)

end Renderer

end SchedReplay
