import JsxLint.Proofs.Success
import JsxLint.Settings

/-!
Settings that come from whatever a configuration file holds. A text that is no document is survived,
and so is a setting of the wrong type: it gives way to its default with a warning, and the other
setting stands. What is not survived are bytes that are no text, a document beyond the limits of the
reader, and a value that stands where a table on the way to the settings belongs. How documents are
read is not considered.
-/

namespace JsxLint
namespace Settings

/-- A list of texts as a document has it. -/
def textArray (texts : List String) : Toml.Value :=
  .array (texts.map .text)

/-- A document has a value for a setting. -/
def Sets (document : Toml.Table) (key : String) (value : Toml.Value) : Prop :=
  ∃ tool table, document.lookup "tool" = some (.table tool) ∧
    tool.lookup "chakra-lint" = some (.table table) ∧ table.lookup key = some value

/-- A value that is no table stands on the way to the settings. -/
inductive Blocked (document : Toml.Table) : Prop where
  | outer {value : Toml.Value} (found : document.lookup "tool" = some value)
      (other : ∀ table, value ≠ .table table)
  | inner {tool : Toml.Table} {value : Toml.Value}
      (around : document.lookup "tool" = some (.table tool))
      (found : tool.lookup "chakra-lint" = some value) (other : ∀ table, value ≠ .table table)

/-- The way to a setting has a value of the wrong type. -/
inductive Mistyped (document : Toml.Table) (key : String) : Prop where
  | table (blocked : Blocked document)
  | setting {value : Toml.Value} (sets : Sets document key value)
      (other : ∀ texts, value ≠ textArray texts)

namespace Location

/-- A text is found that describes a table. -/
def Describes (location : Location) (document : Toml.Table) : Prop :=
  ∃ content text, location = .file content ∧ Text.decode? content = some text ∧
    Toml.parse text = .ok document

/-- There is something to warn about: what is found cannot be read, describes no table, or has a
value of the wrong type on the way to a setting. -/
inductive Faulty : Location → Prop where
  | unreadable : Faulty .unreadable
  | undescriptive {content : Bytes} (none : ∀ document, ¬ Describes (.file content) document) :
      Faulty (.file content)
  | mistyped {location : Location} {document : Toml.Table} {key : String}
      (describes : location.Describes document) (known : key ∈ ["select", "ignore"])
      (wrong : Mistyped document key) : Faulty location

/-- What is found ends the run: it is no text, it is beyond the limits of the reader, or the way to
the settings is blocked. -/
inductive Fatal : Location → Prop where
  | garbled {content : Bytes} (invalid : Text.decode? content = none) : Fatal (.file content)
  | limits {content : Bytes} {text : String} {refusal : Toml.Refusal}
      (decoded : Text.decode? content = some text) (refused : Toml.parse text = .error refusal)
      (limit : refusal ≠ .malformed) : Fatal (.file content)
  | blocked {location : Location} {document : Toml.Table}
      (describes : location.Describes document) (blocked : Blocked document) : Fatal location

end Location

/-- A setting is the list of texts that is given for it, and its default if there is none. -/
def Follows (location : Location) (key : String) (fallback chosen : List String) : Prop :=
  (∀ document, location.Describes document → ∀ texts, Sets document key (textArray texts) →
    chosen = texts) ∧
  ((∀ document, location.Describes document → ∀ texts, ¬ Sets document key (textArray texts)) →
    chosen = fallback)

/-- There are settings, each following what is found or its default on its own, and a warning
exactly if there is something to warn about. -/
def Survives (path : Path) (location : Location) : Prop :=
  ∃ settings, (load path location).result = .ok settings ∧
    Follows location "select" standard.select settings.select ∧
    Follows location "ignore" standard.ignore settings.ignore ∧
    ((∃ event ∈ (load path location).events, event.level = .warning) ↔ location.Faulty)

theorem textArray_injective : Function.Injective textArray := by
  intro texts others same
  exact List.map_inj_right (fun _ _ => Toml.Value.text.inj) |>.1 (Toml.Value.array.inj same)

theorem text?_eq_some {value : Toml.Value} {text : String} :
    value.text? = some text ↔ value = .text text := by
  cases value <;> simp [Toml.Value.text?]

theorem mapM_text?_eq_some {items : List Toml.Value} {texts : List String} :
    items.mapM (·.text?) = some texts ↔ items = texts.map .text := by
  induction items generalizing texts with
  | nil => cases texts <;> simp
  | cons item items ih =>
      simp only [List.mapM_cons, Option.bind_eq_bind, Option.bind_eq_some_iff, text?_eq_some, ih]
      cases texts <;> simp

theorem texts?_eq_some {value : Toml.Value} {texts : List String} :
    texts? value = some texts ↔ value = textArray texts := by
  cases value with
  | array items => simp [texts?, textArray, mapM_text?_eq_some]
  | text | truth | number | moment | table => simp [texts?, textArray]

theorem subtable_eq_ok {table inner : Toml.Table} {name : String} :
    subtable table name = .ok inner ↔
      table.lookup name = some (.table inner) ∨ (table.lookup name = none ∧ inner = []) := by
  unfold subtable
  split
  case h_1 none => simp [none, eq_comm]
  case h_2 found => simp [found]
  case h_3 value other found => simpa [found] using other inner

theorem subtable_eq_error {table : Toml.Table} {name : String} {cause : Failure} :
    subtable table name = .error cause ↔
      cause = .notTable name ∧
        ∃ value, table.lookup name = some value ∧ ∀ inner, value ≠ .table inner := by
  unfold subtable
  split
  case h_1 none => simp [none]
  case h_2 found => simp [found]
  case h_3 value other found => simpa [found, eq_comm] using fun _ => other

/-- The table of the settings. -/
def settingsTable (document : Toml.Table) : Except Failure Toml.Table := do
  subtable (← subtable document "tool") "chakra-lint"

theorem settingsTable_eq_error {document : Toml.Table} :
    (∃ cause, settingsTable document = .error cause) ↔ Blocked document := by
  unfold settingsTable
  constructor
  · rintro ⟨cause, failed⟩
    cases opened : subtable document "tool" with
    | error first =>
        obtain ⟨-, value, found, other⟩ := subtable_eq_error.1 opened
        exact .outer found other
    | ok tool =>
        rw [opened] at failed
        obtain ⟨-, value, found, other⟩ := subtable_eq_error.1 failed
        rcases subtable_eq_ok.1 opened with around | ⟨-, rfl⟩
        · exact .inner around found other
        · cases found
  · rintro (⟨found, other⟩ | ⟨around, found, other⟩)
    · exact ⟨_, by rw [subtable_eq_error.2 ⟨rfl, _, found, other⟩]; rfl⟩
    · refine ⟨.notTable "chakra-lint", ?_⟩
      rw [subtable_eq_ok.2 (.inl around)]
      exact subtable_eq_error.2 ⟨rfl, _, found, other⟩

theorem sets_iff {document table : Toml.Table} (opened : settingsTable document = .ok table)
    (key : String) (value : Toml.Value) :
    Sets document key value ↔ table.lookup key = some value := by
  obtain ⟨tool, outer, inner⟩ := bind_eq_ok.1 opened
  unfold Sets
  rcases subtable_eq_ok.1 outer with around | ⟨none, rfl⟩
  · rcases subtable_eq_ok.1 inner with found | ⟨none, rfl⟩
    · simp [around, found]
    · simp [around, none]
  · rcases subtable_eq_ok.1 inner with found | ⟨-, rfl⟩
    · cases found
    · simp [none]

/-- How a setting is chosen from the table of the settings, and what is recorded about it. -/
inductive Chosen (path : Path) (table : Toml.Table) (key : String) (fallback : List String) :
    List String → List Event → Prop where
  | given {texts : List String} (found : table.lookup key = some (textArray texts)) :
      Chosen path table key fallback texts []
  | wrong {value : Toml.Value} (found : table.lookup key = some value)
      (other : ∀ texts, value ≠ textArray texts) :
      Chosen path table key fallback fallback [.wrongSetting path key (renderTexts fallback)]
  | unset (none : table.lookup key = none) : Chosen path table key fallback fallback []

theorem exists_chosen (path : Path) (table : Toml.Table) (key : String) (fallback : List String) :
    ∃ texts events, textList path table key fallback = ⟨events, .ok texts⟩ ∧
      Chosen path table key fallback texts events := by
  unfold textList
  split
  case h_1 none => exact ⟨_, _, rfl, .unset none⟩
  case h_2 value found =>
    split
    case h_1 texts read => exact ⟨_, _, rfl, .given (texts?_eq_some.1 read ▸ found)⟩
    case h_2 unread =>
      refine ⟨_, _, rfl, .wrong found fun texts same => ?_⟩
      rw [texts?_eq_some.2 same] at unread
      cases unread

theorem ofTable_of_blocked (path : Path) {document : Toml.Table} {cause : Failure}
    (blocked : settingsTable document = .error cause) :
    ofTable path document = ⟨[], .error cause⟩ := by
  unfold settingsTable at blocked
  unfold ofTable
  cases opened : subtable document "tool" with
  | error first =>
      rw [opened, error_bind] at blocked
      rw [Logged.liftM_error_bind, Except.error.inj blocked]
  | ok tool =>
      rw [opened, ok_bind] at blocked
      rw [Logged.liftM_ok_bind, blocked, Logged.liftM_error_bind]

theorem exists_ofTable (path : Path) {document table : Toml.Table}
    (opened : settingsTable document = .ok table) :
    ∃ settings selected ignored,
      ofTable path document = ⟨selected ++ ignored, .ok settings⟩ ∧
      Chosen path table "select" standard.select settings.select selected ∧
      Chosen path table "ignore" standard.ignore settings.ignore ignored := by
  obtain ⟨tool, outer, inner⟩ := bind_eq_ok.1 opened
  obtain ⟨select, selected, select_eq, chosen⟩ := exists_chosen path table "select" standard.select
  obtain ⟨ignore, ignored, ignore_eq, left⟩ := exists_chosen path table "ignore" standard.ignore
  refine ⟨⟨select, ignore⟩, selected, ignored, ?_, chosen, left⟩
  rw [ofTable, outer, Logged.liftM_ok_bind, inner, Logged.liftM_ok_bind, select_eq,
    Logged.mk_ok_bind, ignore_eq, Logged.mk_ok_bind]
  change (⟨selected ++ (ignored ++ []), .ok ⟨select, ignore⟩⟩ : Logged Settings) = _
  rw [List.append_nil]

theorem Location.Describes.unique {location : Location} {document other : Toml.Table}
    (describes : location.Describes document) (describes_other : location.Describes other) :
    document = other := by
  obtain ⟨content, text, rfl, decoded, read⟩ := describes
  obtain ⟨content', text', same, decoded', read'⟩ := describes_other
  cases same
  cases decoded.symm.trans decoded'
  exact Except.ok.inj (read.symm.trans read')

theorem Location.Describes.load_eq {location : Location} {document : Toml.Table}
    (describes : location.Describes document) (path : Path) :
    load path location = ofTable path document := by
  obtain ⟨content, text, rfl, decoded, read⟩ := describes
  simp only [load, decoded, read]

section

variable {path : Path} {location : Location} {document table : Toml.Table} {key : String}
  {fallback chosen : List String} {events : List Event}

theorem follows_fallback (none : ∀ document, ¬ location.Describes document) :
    Follows location key fallback fallback :=
  ⟨fun document describes => absurd describes (none document), fun _ => rfl⟩

theorem Chosen.follows (choice : Chosen path table key fallback chosen events)
    (describes : location.Describes document) (opened : settingsTable document = .ok table) :
    Follows location key fallback chosen := by
  have given (texts : List String) : Sets document key (textArray texts) ↔
      table.lookup key = some (textArray texts) := sets_iff opened key _
  constructor
  · intro other describes_other texts sets
    obtain rfl := describes.unique describes_other
    rw [given] at sets
    cases choice with
    | given found => exact textArray_injective (Option.some.inj (found.symm.trans sets))
    | wrong found other => exact absurd (Option.some.inj (found.symm.trans sets)) (other texts)
    | unset none => cases none.symm.trans sets
  · intro none
    cases choice with
    | given found => exact absurd ((given _).2 found) (none document describes _)
    | wrong | unset => rfl

theorem Chosen.warns_iff (choice : Chosen path table key fallback chosen events)
    (opened : settingsTable document = .ok table) :
    (∃ event ∈ events, event.level = .warning) ↔ Mistyped document key := by
  have free : ¬ Blocked document := by
    intro blocked
    obtain ⟨cause, failed⟩ := settingsTable_eq_error.2 blocked
    cases opened.symm.trans failed
  have mistyped : Mistyped document key ↔
      ∃ value, table.lookup key = some value ∧ ∀ texts, value ≠ textArray texts := by
    constructor
    · rintro (blocked | ⟨sets, other⟩)
      · exact absurd blocked free
      · exact ⟨_, (sets_iff opened key _).1 sets, other⟩
    · rintro ⟨value, found, other⟩
      exact .setting ((sets_iff opened key _).2 found) other
  rw [mistyped]
  cases choice with
  | given found =>
      refine iff_of_false (by simp) ?_
      rintro ⟨value, at_key, other⟩
      exact other _ (Option.some.inj (at_key.symm.trans found))
  | wrong found other => simpa [found, Event.level] using other
  | unset none => simp [none]

end

theorem load_of_fatal (path : Path) {location : Location} (fatal : location.Fatal) :
    ∃ cause, load path location = ⟨[], .error cause⟩ := by
  cases fatal with
  | garbled invalid =>
      refine ⟨.notUtf8, ?_⟩
      simp only [load, invalid]
      rfl
  | @limits content text refusal decoded refused limit =>
      cases refusal with
      | malformed => exact absurd rfl limit
      | oversizedNumber | nestedTooDeep =>
          simp only [load, decoded, refused]
          exact ⟨_, rfl⟩
  | blocked describes blocked =>
      obtain ⟨cause, failed⟩ := settingsTable_eq_error.2 blocked
      exact ⟨cause, by rw [describes.load_eq, ofTable_of_blocked path failed]⟩

theorem survives_of_describes (path : Path) {location : Location} {document : Toml.Table}
    (describes : location.Describes document) (free : ¬ Blocked document) :
    Survives path location := by
  cases opened : settingsTable document with
  | error cause => exact absurd (settingsTable_eq_error.1 ⟨cause, opened⟩) free
  | ok table =>
      obtain ⟨settings, selected, ignored, made, select, ignore⟩ := exists_ofTable path opened
      rw [← describes.load_eq] at made
      refine ⟨settings, by rw [made], select.follows describes opened,
        ignore.follows describes opened, ?_⟩
      -- There is a document and only one, so all that can be wrong is the type of a value in it.
      have faulty : location.Faulty ↔ Mistyped document "select" ∨ Mistyped document "ignore" := by
        constructor
        · intro faulty
          cases faulty with
          | unreadable => obtain ⟨_, _, same, -⟩ := describes; cases same
          | undescriptive none => exact absurd describes (none document)
          | mistyped describes_other known wrong =>
              obtain rfl := describes.unique describes_other
              rcases List.mem_cons.1 known with rfl | known
              · exact .inl wrong
              · exact .inr (List.mem_singleton.1 known ▸ wrong)
        · rintro (wrong | wrong)
          · exact .mistyped describes (by simp) wrong
          · exact .mistyped describes (by simp) wrong
      rw [made, faulty, ← select.warns_iff opened, ← ignore.warns_iff opened]
      simp only [List.mem_append, or_and_right, exists_or]

/-- Where no document is found the settings are the standard ones. -/
theorem survives_of_standard {path : Path} {location : Location} {events : List Event}
    (made : load path location = ⟨events, .ok standard⟩)
    (none : ∀ document, ¬ location.Describes document)
    (warned : (∃ event ∈ events, event.level = .warning) ↔ location ≠ .absent) :
    Survives path location := by
  refine ⟨standard, by rw [made], follows_fallback none, follows_fallback none, ?_⟩
  rw [made, warned]
  constructor
  · intro there
    cases location with
    | absent => exact absurd rfl there
    | unreadable => exact .unreadable
    | file content => exact .undescriptive none
  · rintro (_ | _ | ⟨describes, -, -⟩)
    · exact Location.noConfusion
    · exact Location.noConfusion
    · exact absurd describes (none _)

theorem survives_of_not_fatal (path : Path) {location : Location} (mild : ¬ location.Fatal) :
    Survives path location := by
  cases location with
  | absent => exact survives_of_standard rfl (by simp [Location.Describes]) (by simp)
  | unreadable =>
      have made : load path .unreadable = ⟨[.configurationIgnored path], .ok standard⟩ := rfl
      exact survives_of_standard made (by simp [Location.Describes]) (by simp [Event.level])
  | file content =>
      cases decoded : Text.decode? content with
      | none => exact absurd (.garbled decoded) mild
      | some text =>
          cases read : Toml.parse text with
          | ok document =>
              have describes : Location.Describes (.file content) document :=
                ⟨content, text, rfl, decoded, read⟩
              refine survives_of_describes path describes fun blocked => ?_
              exact mild (.blocked describes blocked)
          | error refusal =>
              by_cases malformed : refusal = .malformed
              · have made : load path (.file content) =
                    ⟨[.configurationIgnored path], .ok standard⟩ := by
                  simp only [load, decoded, read, malformed]
                  rfl
                refine survives_of_standard made ?_ (by simp [Event.level])
                rintro document ⟨_, _, ⟨⟩, decoded', read'⟩
                cases decoded.symm.trans decoded'
                cases read.symm.trans read'
              · exact absurd (.limits decoded read malformed) mild

/-- Whatever is found at the path of the configuration file, settings come of it, each of the two
as it is given or else its default, with a warning exactly if something is wrong, unless it is one
of the fatal cases; in these there are no settings and no warning. -/
theorem load_survives_iff_not_fatal (path : Path) (location : Location) :
    (Survives path location ↔ ¬ location.Fatal) ∧
    (location.Fatal ↔ ∃ cause, load path location = ⟨[], .error cause⟩) := by
  have fails : location.Fatal → ¬ Survives path location := by
    rintro fatal ⟨settings, made, -⟩
    obtain ⟨cause, failed⟩ := load_of_fatal path fatal
    rw [failed] at made
    cases made
  refine ⟨⟨fun survives fatal => fails fatal survives, survives_of_not_fatal path⟩,
    load_of_fatal path, ?_⟩
  rintro ⟨cause, failed⟩
  refine Classical.byContradiction fun mild => ?_
  obtain ⟨settings, made, -⟩ := survives_of_not_fatal path mild
  rw [failed] at made
  cases made

def configurationPath : Path :=
  ⟨"", ["conf.toml"]⟩

/-- One setting is given and the other is a number. -/
def mixedConfiguration : Location :=
  .file (Text.encode "[tool.chakra-lint]\nselect = ['A']\nignore = 1\n")

theorem load_survives_iff_not_fatal_mixed :
    Survives configurationPath mixedConfiguration ∧
    (load configurationPath mixedConfiguration).result = .ok ⟨["A"], []⟩ ∧
    (load configurationPath mixedConfiguration).events =
      [.wrongSetting configurationPath "ignore" "[]"] := by
  have made : (load configurationPath mixedConfiguration).result = .ok ⟨["A"], []⟩ :=
    eq_ok_of_toOption (by decide +kernel)
  obtain ⟨survives, fatal⟩ := load_survives_iff_not_fatal configurationPath mixedConfiguration
  refine ⟨survives.2 fun ends => ?_, made, by decide +kernel⟩
  obtain ⟨cause, failed⟩ := fatal.1 ends
  rw [failed] at made
  cases made

/-- Neither a number in place of a table nor a byte that is no text is survived. -/
theorem configuration_not_survived :
    ¬ Survives configurationPath (.file (Text.encode "tool = 1\n")) ∧
      ¬ Survives configurationPath (.file [0xff]) := by
  have number : (load configurationPath (.file (Text.encode "tool = 1\n"))).result.toOption =
      none := by
    decide +kernel
  have byte : (load configurationPath (.file [0xff])).result.toOption = none := by
    decide +kernel
  constructor
  · rintro ⟨settings, made, -⟩
    rw [made] at number
    cases number
  · rintro ⟨settings, made, -⟩
    rw [made] at byte
    cases byte

end Settings
end JsxLint
