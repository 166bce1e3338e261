import ClassMigration.CommandLine.Arguments
import ClassMigration.Proofs.Script.Onward

/-! How options are spelled, and when a run is a dry one. A long option may be cut short to its first letter,
since no two options begin with one letter. A switch counts wherever it stands before the divider, for no
option takes another one as its value. -/
namespace ClassMigration.CommandLine

open Script (bind_eq_ok)

namespace Parameter

/-- The text spells the option: in full or cut short, or by its short name. -/
def Spelled (parameter : Parameter) (text : Text) : Prop :=
  (text <+: parameter.long ∧ 3 ≤ text.length) ∨ parameter = help ∧ text = shortHelp

variable {parameter : Parameter} {text : Text}

theorem spelled_of_spelled? (found : spelled? text = some parameter) : parameter.Spelled text := by
  rw [spelled?] at found
  split at found
  case isTrue short =>
    cases found
    exact .inr ⟨rfl, short⟩
  case isFalse =>
    have same : parameter.long = text := by simpa using List.find?_some found
    rw [← same]
    refine .inl ⟨List.prefix_rfl, ?_⟩
    cases parameter <;> decide

end Parameter

namespace Argument

variable {parameter : Parameter} {text tail : Text} {texts : List Text} {arguments : List Argument}

theorem ok_of_toOption {ε α : Type} {x : Except ε α} {a : α} (some : x.toOption = .some a) : x = .ok a := by
  cases x with
  | error => cases some
  | ok => cases some; rfl

theorem halves_of_bare (bare : (halves text).2 = none) : halves text = (text, none) := by
  unfold halves at bare ⊢
  split at bare
  case h_1 => cases bare
  case h_2 => rfl

/-- An option that is not spelled in full is the only one that goes on as the text does. -/
theorem spelled_of_ofDashed (read : ofDashed text = .ok (option parameter none)) :
    text <+: parameter.long ∧ 3 ≤ text.length := by
  unfold ofDashed at read
  generalize whole : halves text = parts at read
  obtain ⟨opening, value⟩ := parts
  dsimp only at read
  split at read
  case h_1 found only =>
    cases read
    have bare : opening = text := by
      have split : halves text = (text, none) := halves_of_bare (by rw [whole])
      rw [whole] at split
      exact congrArg Prod.fst split
    subst bare
    have mem : parameter ∈ Parameter.all.filter fun parameter =>
        Text.startsWith opening divide && Text.startsWith parameter.long opening := by
      rw [only]
      exact List.mem_cons_self
    have checked := (List.mem_filter.mp mem).2
    simp only [Bool.and_eq_true, Text.startsWith_iff] at checked
    obtain ⟨⟨rest, rfl⟩, starts⟩ := checked
    refine ⟨starts, ?_⟩
    -- the dashes alone begin every option
    cases rest with
    | nil =>
      have several : (List.filter _ _).length = 1 := congrArg List.length only
      exact absurd several (by decide)
    | cons c rest => simp [divide]
  case h_2 =>
    split at read
    · cases read
    · split at read <;> cases read
  case h_3 => cases read

theorem ofText_eq_option_iff : ofText text = .ok (option parameter none) ↔ parameter.Spelled text := by
  constructor
  · intro read
    unfold ofText at read
    split at read
    case isTrue => cases read
    case isFalse =>
      split at read
      case h_1 found =>
        cases read
        exact Parameter.spelled_of_spelled? found
      case h_2 => cases read
      case h_3 => exact .inl (spelled_of_ofDashed read)
  · rintro (⟨cut, long⟩ | ⟨rfl, rfl⟩)
    · have every : ∀ n < 17, 3 ≤ n → n ≤ parameter.long.length →
          (ofText (parameter.long.take n)).toOption = some (option parameter none) := by
        cases parameter <;> decide +kernel
      have bound : parameter.long.length < 17 := by cases parameter <;> decide
      have same := List.prefix_iff_eq_take.mp cut
      rw [same]
      have short := cut.length_le
      exact ok_of_toOption (every text.length (by omega) long short)
    · exact ok_of_toOption (by decide +kernel)

theorem starts_of_ofText_cluster (read : ofText text = .ok (cluster tail)) :
    Parameter.shortHelp <+: text := by
  unfold ofText at read
  split at read
  case isTrue => cases read
  case isFalse =>
    split at read
    case h_1 => cases read
    case h_2 => cases read
    case h_3 =>
      unfold ofDashed at read
      dsimp only at read
      split at read
      case h_1 => cases read
      case h_2 =>
        split at read
        case isTrue starts => exact Text.startsWith_iff.mp starts
        case isFalse => split at read <;> cases read
      case h_3 => cases read

theorem spelled?_shortHelp (filled : tail ≠ []) : Parameter.spelled? (Parameter.shortHelp ++ tail) = none := by
  have other (parameter : Parameter) : parameter.long ≠ Parameter.shortHelp ++ tail := by
    obtain ⟨rest, dashes⟩ : ∃ rest, parameter.long = .char '-' :: .char '-' :: rest := by
      cases parameter <;> exact ⟨_, rfl⟩
    rw [dashes]
    intro same
    cases same
  have longer : Parameter.shortHelp ++ tail ≠ Parameter.shortHelp := by simpa using filled
  rw [Parameter.spelled?, if_neg longer, List.find?_eq_none]
  intro parameter _
  simpa using other parameter

theorem ofDashed_shortHelp (tail : Text) : ofDashed (Parameter.shortHelp ++ tail) = .ok (cluster tail) := by
  have noDivider : Text.startsWith (Parameter.shortHelp ++ tail) divide = false := rfl
  have starts : Text.startsWith (Parameter.shortHelp ++ tail) Parameter.shortHelp = true := rfl
  have no : Parameter.all.filter (fun _ => false) = [] := rfl
  simp only [ofDashed, noDivider, starts, Bool.false_and, no, if_true]
  rfl

theorem opening_of_halves {value : Text} (valued : (halves text).2 = some value) :
    (halves text).1 = text.takeWhile (· != .char '=') := by
  unfold halves at valued ⊢
  split at valued
  case h_1 => rfl
  case h_2 => cases valued

/-- A text that begins with the short help option asks for help, or gives it a value. -/
theorem ofText_shortHelp (tail : Text) :
    (∃ value, ofText (Parameter.shortHelp ++ tail) = .ok (option .help value)) ∨
      ofText (Parameter.shortHelp ++ tail) = .ok (cluster tail) := by
  by_cases whole : tail = []
  · subst whole
    exact .inl ⟨none, rfl⟩
  · have dashed : ¬(!Text.startsWith (Parameter.shortHelp ++ tail) [.char '-'] ||
        Parameter.shortHelp ++ tail = [.char '-']) := by simp [Text.startsWith, Parameter.shortHelp]
    rw [ofText, if_neg dashed, spelled?_shortHelp whole]
    split
    case h_1 none => cases none
    case h_2 parameter value _ found =>
      obtain ⟨value', valued, found⟩ := Option.bind_eq_some_iff.mp found
      obtain ⟨parameter', spelled, same⟩ := Option.map_eq_some_iff.mp found
      cases same
      rw [opening_of_halves valued] at spelled
      change Parameter.spelled? (Parameter.shortHelp ++ tail.takeWhile (· != .char '=')) = some parameter at spelled
      by_cases bare : tail.takeWhile (· != .char '=') = []
      · rw [bare] at spelled
        cases spelled
        exact .inl ⟨_, rfl⟩
      · rw [spelled?_shortHelp bare] at spelled
        cases spelled
    case h_3 => exact .inr (ofDashed_shortHelp tail)

theorem mem_ofTexts_iff {argument : Argument} (isOption : argument.isOption = true)
    (read : ofTexts texts = .ok arguments) :
    argument ∈ arguments ↔ ∃ text ∈ texts.takeWhile (· ≠ divide), ofText text = .ok argument := by
  have noDivider : argument ≠ divider := by
    rintro rfl
    cases isOption
  have noOperand (text : Text) : operand text ≠ argument := by
    rintro rfl
    cases isOption
  induction texts generalizing arguments with
  | nil =>
    cases read
    simp
  | cons text more ih =>
    rw [ofTexts] at read
    split at read
    case isTrue isDivider =>
      cases read
      simp [isDivider, noDivider, noOperand]
    case isFalse other =>
      obtain ⟨first, own, read⟩ := bind_eq_ok.mp read
      obtain ⟨rest, others, read⟩ := bind_eq_ok.mp read
      cases read
      simp [other, own, ih others, eq_comm]

end Argument

namespace Reading

variable {reading next : Reading} {parameter : Parameter} {value : Text} {run arguments : List Argument}
  {request : Request}

@[simp] theorem request_operands (reading : Reading) (operands : List Argument) :
    (reading.operands operands).request = reading.request := by
  unfold Reading.operands
  dsimp only
  split <;> rfl

theorem dry_of_set (set : reading.set parameter value = .ok next) : next.request.dry = reading.request.dry := by
  unfold Reading.set at set
  dsimp only at set
  split at set
  · cases set; rfl
  · split at set <;> cases set
    rfl
  · split at set <;> cases set
    rfl
  · cases set; rfl
  · cases set
  · cases set
  · cases set

theorem dry_turnOn (reading : Reading) (parameter : Parameter) :
    (reading.turnOn parameter).request.dry = (reading.request.dry || parameter == .dryRun) := by
  cases parameter with
  | dryRun => exact (Bool.or_true _).symm
  | _ => exact (Bool.or_false _).symm

theorem dry_of_finish (finish : reading.finish = .ok request) : request.dry = reading.request.dry := by
  unfold Reading.finish at finish
  split at finish
  · split at finish <;> cases finish
    rfl
  · cases finish

/-- The switch for a dry run counts wherever it stands among the arguments that are read. -/
theorem dry_of_arguments (read : reading.arguments run arguments = .ok (some request)) :
    request.dry = true ↔ reading.request.dry = true ∨ .option .dryRun none ∈ arguments := by
  fun_induction Reading.arguments reading run arguments with
  | case1 reading run =>
    cases finished : (reading.operands run.reverse).finish with
    | error fault => simp [finished, Except.map] at read
    | ok made =>
      obtain rfl : made = request := by simpa [finished, Except.map] using read
      simp [dry_of_finish finished]
  | case2 reading run text more ih => simpa using ih read
  | case3 reading run more ih => simpa using ih read
  | case4 reading run text more before ih => simpa [before] using ih read
  | case5 => cases read
  | case6 => cases read
  | case7 reading run parameter value more ih =>
    obtain ⟨next, set, read⟩ := bind_eq_ok.mp read
    simpa [dry_of_set set] using ih next read
  | case8 => cases read
  | case9 reading run parameter _ valued value others ih =>
    obtain ⟨next, set, read⟩ := bind_eq_ok.mp read
    have other : parameter ≠ .dryRun := by rintro rfl; cases valued
    simpa [dry_of_set set, other.symm] using ih next read
  | case10 => cases read
  | case11 reading run parameter more _ _ ih =>
    rw [ih read, dry_turnOn, request_operands]
    by_cases switch : parameter = .dryRun
    · simp [switch]
    · simp [switch, Ne.symm switch]

/-- Help is the answer where one of the arguments asks for it, and no argument of a request does. -/
theorem help_of_arguments {made : Option Request} (read : reading.arguments run arguments = .ok made) :
    (made = none → .option .help none ∈ arguments ∨ ∃ tail, .cluster tail ∈ arguments) ∧
      (made ≠ none → (∀ value, .option .help value ∉ arguments) ∧ ∀ tail, .cluster tail ∉ arguments) := by
  fun_induction Reading.arguments reading run arguments with
  | case1 reading run =>
    cases finished : (reading.operands run.reverse).finish with
    | error fault => simp [finished, Except.map] at read
    | ok request =>
      obtain rfl : some request = made := by simpa [finished, Except.map] using read
      simp
  | case2 reading run text more ih => simpa using ih read
  | case3 reading run more ih => simpa using ih read
  | case4 reading run text more before ih => simpa using ih read
  | case5 => cases read
  | case6 reading run tail =>
    cases read
    exact ⟨fun _ => .inr ⟨tail, List.mem_cons_self⟩, absurd rfl⟩
  | case7 reading run parameter value more ih =>
    obtain ⟨next, set, read⟩ := bind_eq_ok.mp read
    have other : parameter ≠ .help := by rintro rfl; cases set
    simpa [Ne.symm other] using ih next read
  | case8 =>
    cases read
    exact ⟨fun _ => .inl List.mem_cons_self, absurd rfl⟩
  | case9 reading run parameter other valued value others ih =>
    obtain ⟨next, set, read⟩ := bind_eq_ok.mp read
    simpa [Ne.symm other] using ih next read
  | case10 => cases read
  | case11 reading run parameter more other _ ih => simpa [Ne.symm other] using ih read

end Reading

/-- The switch stands before the divider, in full or cut short. -/
def Parameter.Given (parameter : Parameter) (texts : List Text) : Prop :=
  ∃ text ∈ texts.takeWhile (· ≠ Argument.divide), parameter.Spelled text

/-- Before the divider stands an option that asks for help, or the short one with more behind it. -/
def AsksHelp (texts : List Text) : Prop :=
  ∃ text ∈ texts.takeWhile (· ≠ Argument.divide), Parameter.help.Spelled text ∨ Parameter.shortHelp <+: text

variable {texts : List Text} {request : Request}

theorem dry_of_read (found : read texts = .ok (some request)) :
    request.dry = true ↔ Parameter.dryRun.Given texts := by
  obtain ⟨arguments, formed, found⟩ := bind_eq_ok.mp found
  rw [Reading.dry_of_arguments found, Argument.mem_ofTexts_iff rfl formed]
  simp [Reading.start, Argument.ofText_eq_option_iff, Parameter.Given]

theorem asksHelp_of_read (found : read texts = .ok none) : AsksHelp texts := by
  obtain ⟨arguments, formed, found⟩ := bind_eq_ok.mp found
  rcases (Reading.help_of_arguments found).1 rfl with option | ⟨tail, cluster⟩
  · obtain ⟨text, mem, own⟩ := (Argument.mem_ofTexts_iff rfl formed).mp option
    exact ⟨text, mem, .inl (Argument.ofText_eq_option_iff.mp own)⟩
  · obtain ⟨text, mem, own⟩ := (Argument.mem_ofTexts_iff rfl formed).mp cluster
    exact ⟨text, mem, .inr (Argument.starts_of_ofText_cluster own)⟩

theorem not_asksHelp_of_read (found : read texts = .ok (some request)) : ¬AsksHelp texts := by
  obtain ⟨arguments, formed, found⟩ := bind_eq_ok.mp found
  obtain ⟨noOption, noCluster⟩ := (Reading.help_of_arguments found).2 (Option.some_ne_none _)
  rintro ⟨text, mem, spelled | ⟨tail, rfl⟩⟩
  · have own := Argument.ofText_eq_option_iff.mpr spelled
    exact noOption none ((Argument.mem_ofTexts_iff rfl formed).mpr ⟨text, mem, own⟩)
  · rcases Argument.ofText_shortHelp tail with ⟨value, own⟩ | own
    · exact noOption value ((Argument.mem_ofTexts_iff rfl formed).mpr ⟨_, mem, own⟩)
    · exact noCluster tail ((Argument.mem_ofTexts_iff rfl formed).mpr ⟨_, mem, own⟩)

end ClassMigration.CommandLine
