import JsxLint.Proofs.Component.Match
import JsxLint.Proofs.Component.Plan
import JsxLint.Rule.SpecificComponent

/-!
What the built-in rule has looked at when it reports a tag: the tag is the library's generic
component, one of its attributes prescribes another, and the replacement could be planned. The
wording of the report is not considered.
-/

namespace JsxLint

theorem Rule.check_eq_some {rule : Rule} {context : Context} {tag : Cursor} {issue : Issue} :
    (rule.check context tag).result = .ok (some issue) ↔
      ∃ finding, (rule.inspect context tag).result = .ok (some finding) ∧
        rule.issue context tag finding = .ok issue := by
  simp only [check, Logged.result_bind]
  constructor
  · intro h
    obtain ⟨finding?, inspected, h⟩ := bind_eq_ok.1 h
    cases finding? with
    | none => cases h
    | some finding =>
        simp only [Logged.result_bind, Logged.result_liftM, Logged.result_pure] at h
        obtain ⟨made, hm, h⟩ := bind_eq_ok.1 h
        obtain rfl := Option.some.inj (Except.ok.inj h)
        exact ⟨finding, inspected, hm⟩
  · rintro ⟨finding, inspected, made⟩
    simp only [inspected, ok_bind, Logged.result_bind, Logged.result_liftM, Logged.result_pure,
      made]

theorem Rule.issue_eq_ok {rule : Rule} {context : Context} {tag : Cursor} {finding : Finding}
    {issue : Issue} (h : rule.issue context tag finding = .ok issue) :
    issue.fix = finding.fix ∧ issue.data = finding.data := by
  obtain ⟨column, -, h⟩ := bind_eq_ok.1 h
  obtain rfl := pure_eq_ok.1 h
  exact ⟨rfl, rfl⟩

/-- An attribute that prescribes a component has a name and a value, which are in the catalogue. -/
theorem Component.matchAttribute?_eq_some {source : Bytes} {generic : String} {attr : Cursor}
    {found : Component.Match} (h : matchAttribute? source generic attr = .ok (some found)) :
    found.attr = attr ∧ ∃ name value, attr.attributeName? source = .ok (some name) ∧
      specific? generic name value = some found.specific := by
  obtain ⟨same, name, literal, ⟨kind, first, value, text, -, -, carried⟩, listed⟩ :=
    matchAttribute?_eq_some_iff.1 h
  refine ⟨same, name, text, Cursor.attributeName?_eq_some_iff.2 ⟨kind, first⟩, ?_⟩
  rw [specific?, carried, Option.bind_some, prescribed?_eq_some_iff.2 listed]

namespace SpecificComponent

variable {context : Context} {tag : Cursor}

/-- A tag that is taken for the library's generic component has its name and its origin. -/
theorem eligible_eq_true {resolver : Resolver} (h : eligible resolver tag = .ok true) :
    ∃ name, tag.tagName? = some name ∧ name.text resolver.source = .ok generic ∧
      Component.origin? resolver name = .ok (some Component.library) := by
  unfold eligible at h
  split at h
  · rename_i name hn
    obtain ⟨text, ht, h⟩ := bind_eq_ok.1 h
    split at h
    · rename_i generic_eq
      rw [Component.isLibraryTag, hn] at h
      obtain ⟨origin, ho, h⟩ := bind_eq_ok.1 h
      have same : origin = some Component.library := by simpa using pure_eq_ok.1 h
      exact ⟨name, hn, generic_eq ▸ ht, same ▸ ho⟩
    · cases h
  · cases h

theorem finding_eq_ok {found : Component.Match} {made : Finding} :
    (finding context tag found).result = .ok made ↔
      ∃ attr fix, found.attr.text context.source = .ok attr ∧
        (Component.plan context.resolver tag found.attr found.specific).result = .ok fix ∧
        made = ⟨message attr found.specific,
          [("invalid_component", generic), ("valid_component", found.specific),
            ("attribute", attr)], some fix⟩ := by
  simp only [finding, Logged.result_bind, Logged.result_liftM, Logged.result_record,
    Logged.result_pure, ok_bind]
  constructor
  · intro h
    obtain ⟨attr, ha, h⟩ := bind_eq_ok.1 h
    obtain ⟨fix, planned, h⟩ := bind_eq_ok.1 h
    exact ⟨attr, fix, ha, planned, (Except.ok.inj h).symm⟩
  · rintro ⟨attr, fix, ha, planned, rfl⟩
    rw [ha, ok_bind, planned, ok_bind]

theorem inspect_eq_some {made : Finding} :
    (inspect context tag).result = .ok (some made) ↔
      eligible context.resolver tag = .ok true ∧
      ∃ found, Component.match? context.source generic tag = .ok (some found) ∧
        (finding context tag found).result = .ok made := by
  simp only [inspect, Logged.result_bind, Logged.result_liftM]
  constructor
  · intro h
    obtain ⟨generic_tag, eligible, h⟩ := bind_eq_ok.1 h
    cases generic_tag with
    | false => cases h
    | true =>
        simp only [if_true, Logged.result_bind, Logged.result_liftM] at h
        obtain ⟨found?, matched, h⟩ := bind_eq_ok.1 h
        cases found? with
        | none => cases h
        | some found =>
            simp only [Logged.result_bind, Logged.result_pure] at h
            obtain ⟨inner, hi, h⟩ := bind_eq_ok.1 h
            obtain rfl := Option.some.inj (Except.ok.inj h)
            exact ⟨eligible, found, matched, hi⟩
  · rintro ⟨eligible, found, matched, hm⟩
    simp only [eligible, ok_bind, if_true, Logged.result_bind, Logged.result_liftM, matched, hm,
      Logged.result_pure]

/-- Behind an issue stands an attribute that prescribes the suggested component, and a plan. -/
theorem exists_match_of_check {issue : Issue}
    (h : (Rule.specificComponent.check context tag).result = .ok (some issue)) :
    eligible context.resolver tag = .ok true ∧
    ∃ attr component fix,
      Component.match? context.source generic tag = .ok (some ⟨attr, component⟩) ∧
      issue.suggestion? = some component ∧ issue.fix = some fix ∧
      (Component.plan context.resolver tag attr component).result = .ok fix := by
  obtain ⟨made, inspected, hi⟩ := Rule.check_eq_some.1 h
  obtain ⟨fix_eq, data_eq⟩ := Rule.issue_eq_ok hi
  obtain ⟨eligible, ⟨attr, component⟩, matched, hm⟩ := inspect_eq_some.1 inspected
  obtain ⟨text, fix, -, planned, rfl⟩ := finding_eq_ok.1 hm
  refine ⟨eligible, attr, component, fix, matched, ?_, fix_eq, planned⟩
  rw [Issue.suggestion?, data_eq]
  rfl

theorem check_eq_some {issue : Issue} {component : String}
    (h : (Rule.specificComponent.check context tag).result = .ok (some issue))
    (suggested : issue.suggestion? = some component) :
    eligible context.resolver tag = .ok true ∧
    ∃ attr fix, Component.match? context.source generic tag = .ok (some ⟨attr, component⟩) ∧
      issue.fix = some fix ∧
      (Component.plan context.resolver tag attr component).result = .ok fix := by
  obtain ⟨eligible, attr, found, fix, matched, at_issue, fix_eq, planned⟩ := exists_match_of_check h
  obtain rfl := Option.some.inj (at_issue.symm.trans suggested)
  exact ⟨eligible, attr, fix, matched, fix_eq, planned⟩

/-- The component to use at a tag and the edits that bring it in, before they are put together. -/
def parts? (resolver : Resolver) (tag : Cursor) : Except Failure (Option (String × List Edit)) := do
  match ← eligible resolver tag, ← Component.match? resolver.source generic tag with
  | true, some found =>
    let _ ← found.attr.text resolver.source
    let _ ← tag.column resolver.source
    let opening ← Component.renameOpening tag found.specific
    let closing? ← Component.renameClosing? tag found.specific
    let removal ← Component.removeAttribute tag found.attr
    let import? ← Component.extendImport? resolver tag found.specific
    return some (found.specific, [opening] ++ closing?.toList ++ [removal] ++ import?.toList)
  | _, _ => return none

/-- A tag is reported once the parts of its replacement are found and do not overlap. They make up
its fix. -/
theorem exists_issue {path : Path} {resolver : Resolver} {component : String} {edits : List Edit}
    (found : parts? resolver tag = .ok (some (component, edits))) (disjoint : Edit.Disjoint edits) :
    ∃ issue fix, (Rule.specificComponent.check ⟨path, resolver⟩ tag).result = .ok (some issue) ∧
      issue.suggestion? = some component ∧ issue.fix = some fix ∧ fix.edits.Perm edits := by
  obtain ⟨generic_tag, eligible, found⟩ := bind_eq_ok.1 found
  obtain ⟨found?, matched, found⟩ := bind_eq_ok.1 found
  cases generic_tag with
  | false => cases found
  | true =>
      cases found? with
      | none => cases found
      | some mine =>
          obtain ⟨attr, ha, found⟩ := bind_eq_ok.1 found
          obtain ⟨column, hcol, found⟩ := bind_eq_ok.1 found
          obtain ⟨opening, ho, found⟩ := bind_eq_ok.1 found
          obtain ⟨closing?, hc, found⟩ := bind_eq_ok.1 found
          obtain ⟨removal, hr, found⟩ := bind_eq_ok.1 found
          obtain ⟨import?, hi, found⟩ := bind_eq_ok.1 found
          obtain ⟨rfl, rfl⟩ := Prod.mk.inj (Option.some.inj (pure_eq_ok.1 found))
          obtain ⟨fix, planned, perm⟩ := Component.exists_plan ho hc hr hi disjoint
          have made : (finding ⟨path, resolver⟩ tag mine).result = .ok _ :=
            finding_eq_ok.2 ⟨attr, fix, ha, planned, rfl⟩
          have inspected : (inspect ⟨path, resolver⟩ tag).result = .ok (some _) :=
            inspect_eq_some.2 ⟨eligible, mine, matched, made⟩
          exact ⟨_, fix, Rule.check_eq_some.2 ⟨_, inspected, bind_eq_ok.2 ⟨column, hcol, rfl⟩⟩,
            rfl, rfl, perm⟩

end SpecificComponent
end JsxLint
