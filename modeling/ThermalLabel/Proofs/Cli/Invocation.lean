import ThermalLabel.Cli.Invocation

/-!
# The strict switch on a command line

A command line that can be read asks for strict mode exactly if `--strict` is one of its arguments before two dashes
(`strict_iff_mem`): it is no value of another option, since a value does not begin with a dash, and no letter stands for
it. `--strict` in front of a command line that lacks it changes nothing else of what is asked for
(`ofArguments_strict_cons`). Both follow from what each step of reading does to the options read so far (`Reads`).
-/

namespace ThermalLabel.Cli

/-- Is the switch among the options read so far? -/
def Given.strict (g : Given) : Bool := (g.get? "strict").isSome

/-- The switch in front of the options read so far. -/
def Given.withStrict (g : Given) : Given := { g with options := ("strict", "") :: g.options }

/-- Does an argument before two dashes give the switch? -/
def givesStrict (args : List String) : Bool := decide ("--strict" ∈ args.takeWhile (· ≠ "--"))

theorem givesStrict_cons {arg : String} (h : arg ≠ "--") (args : List String) :
    givesStrict (arg :: args) = (decide (arg = "--strict") || givesStrict args) := by
  simp [givesStrict, h, eq_comm]

/-! ## The options read so far -/

namespace Given

theorem foldl_addOperand (values : List String) : ∀ g : Given,
    values.foldl addOperand g = { g with operands := g.operands ++ values } := by
  induction values with
  | nil => intro g; simp
  | cons v vs ih => intro g; simp [ih, addOperand]

/-- Other options do not notice the switch. -/
theorem get?_withStrict (g : Given) {name : String} (h : name ≠ "strict") : g.withStrict.get? name = g.get? name := by
  have hb : (name == "strict") = false := beq_eq_false_iff_ne.mpr h
  simp [get?, withStrict, List.lookup_cons, hb]

theorem addOption_eq_ok {g g' : Given} {name value : String} (h : g.addOption name value = .ok g') :
    (g.get? name).isSome = false ∧ ¬(name = "output" ∧ value ≠ "pretty" ∧ value ≠ "json") ∧
      g' = { g with options := g.options ++ [(name, value)] } := by
  rw [addOption] at h
  split at h
  · exact nomatch h
  split at h
  · exact nomatch h
  rename_i hr hv
  exact ⟨by simpa using hr, hv, (Except.ok.inj h).symm⟩

/-- One more option gives the switch if it is the switch. -/
theorem strict_of_addOption {g g' : Given} {name value : String} (h : g.addOption name value = .ok g') :
    g'.strict = (g.strict || decide (name = "strict")) := by
  obtain ⟨-, -, rfl⟩ := addOption_eq_ok h
  have hl : List.lookup "strict" [(name, value)] = if name = "strict" then some value else none := by
    by_cases hn : name = "strict"
    · simp [hn]
    · have hb : ("strict" == name) = false := beq_eq_false_iff_ne.mpr (Ne.symm hn)
      simp [List.lookup_cons, hb, hn]
  simp only [strict, get?, List.lookup_append, hl]
  by_cases hn : name = "strict" <;> simp [hn]

/-- An option other than the switch can be added beside the switch. -/
theorem addOption_withStrict {g g' : Given} {name value : String} (h : g.addOption name value = .ok g')
    (hs : g'.strict = false) : g.withStrict.addOption name value = .ok g'.withStrict := by
  have hn : name ≠ "strict" := by
    intro hn
    simp [strict_of_addOption h, hn] at hs
  obtain ⟨hr, hv, rfl⟩ := addOption_eq_ok h
  rw [addOption, get?_withStrict g hn, hr, if_neg Bool.false_ne_true, if_neg hv]
  rfl

end Given

/-! ## One argument -/

/-- What a step of reading does to the options read so far: it gives the switch or not, and unless it does, it does the
same beside the switch. -/
structure Reads {α : Type} (step : Given → Except UsageError α) (result : Given → α) (g g' : Given) (gives : Bool) :
    Prop where
  strict : g'.strict = (g.strict || gives)
  beside : g'.strict = false → step g.withStrict = .ok (result g'.withStrict)

/-- No letter and no value belongs to the switch. -/
def BareStrict (specs : List OptionSpec) : Prop := ∀ s ∈ specs, s.name = "strict" → s.letter = none ∧ s.valued = false

theorem reads_addOption {g g' : Given} {name value : String} (h : g.addOption name value = .ok g') :
    Reads (·.addOption name value) id g g' (name = "strict") :=
  ⟨Given.strict_of_addOption h, Given.addOption_withStrict h⟩

theorem reads_map_addOption {α : Type} {g : Given} {name value : String} {f : Given → α} {a : α}
    (h : (g.addOption name value).map f = .ok a) :
    ∃ g', f g' = a ∧ Reads (fun g => (g.addOption name value).map f) f g g' (name = "strict") := by
  match hg : g.addOption name value with
  | .error e => rw [hg] at h; exact nomatch h
  | .ok g' =>
    rw [hg] at h
    have hr := reads_addOption hg
    refine ⟨g', Except.ok.inj h, hr.strict, fun hs => ?_⟩
    rw [hr.beside hs]
    rfl

theorem reads_flag {spec : OptionSpec} {g g' : Given} (h : flag spec g = .ok (.given g')) :
    Reads (flag spec) .given g g' (spec.name = "strict") := by
  rw [flag] at h
  split at h
  · exact nomatch h
  split at h
  · exact nomatch h
  rename_i hh hv
  have hstep : flag spec = fun g => (g.addOption spec.name "").map .given := by
    funext g
    rw [flag, if_neg hh, if_neg hv]
  obtain ⟨g'', he, hr⟩ := reads_map_addOption h
  cases he
  rw [hstep]
  exact hr

theorem Reads.trans {α β : Type} {step₁ : Given → Except UsageError α} {step₂ step : Given → Except UsageError β}
    {result₁ : Given → α} {result₂ : Given → β} {g g₁ g₂ : Given} {a b : Bool}
    (h₁ : Reads step₁ result₁ g g₁ a) (h₂ : Reads step₂ result₂ g₁ g₂ b)
    (hstep : step₁ g.withStrict = .ok (result₁ g₁.withStrict) → step g.withStrict = step₂ g₁.withStrict) :
    Reads step result₂ g g₂ (a || b) where
  strict := by rw [h₂.strict, h₁.strict, Bool.or_assoc]
  beside := fun hs => by
    have hs₁ : g₁.strict = false := by
      have h := h₂.strict
      rw [hs] at h
      exact (Bool.or_eq_false_iff.mp h.symm).1
    rw [hstep (h₁.beside hs₁)]
    exact h₂.beside hs

section Letters

variable {specs : List OptionSpec} {spec : OptionSpec} {c : Char} {cs : List Char}

/-- What follows the letter of an option with a value is its value. -/
theorem letters_valued (hf : (specs.find? fun s => s.letter = some c) = some spec) (hv : spec.valued = true)
    (hc : cs ≠ []) :
    ∃ value, ∀ g, letters specs g (c :: cs) = (g.addOption spec.name value).map fun g => (.given g, none) := by
  match cs with
  | [] => exact absurd rfl hc
  | d :: ds =>
    by_cases hd : d = '='
    · refine ⟨String.ofList ds, fun g => ?_⟩
      rw [letters, hf, hd]
      simp only [hv, if_true]
    · refine ⟨String.ofList (d :: ds), fun g => ?_⟩
      rw [letters, hf]
      simp only [hv, if_true]
      split
      · rename_i hn
        exact nomatch hn
      · rename_i hn
        exact absurd (List.cons.inj hn).1 hd
      · rfl

/-- An option without a value is read alone. -/
theorem letters_flag (hf : (specs.find? fun s => s.letter = some c) = some spec) (hv : spec.valued = false)
    {g g₁ : Given} (hg : flag spec g = .ok (.given g₁)) : letters specs g (c :: cs) = letters specs g₁ cs := by
  rw [letters, hf]
  simp only [hv, Bool.false_eq_true, if_false, hg]

/-- No letter stands for the switch. -/
theorem reads_letters (hb : BareStrict specs) : ∀ {cs : List Char} {g g' : Given} {need : Option OptionSpec},
    letters specs g cs = .ok (.given g', need) →
      Reads (letters specs · cs) (fun g => (.given g, need)) g g' false ∧ ∀ spec ∈ need, spec.name ≠ "strict"
  | [], g, g', need, h => by
    cases h
    exact ⟨⟨(Bool.or_false _).symm, fun _ => rfl⟩, fun _ hn => nomatch hn⟩
  | c :: cs, g, g', need, h => by
    match hf : specs.find? fun s => s.letter = some c with
    | none => rw [letters, hf] at h; exact nomatch h
    | some spec =>
      have hname : spec.name ≠ "strict" := by
        intro hn
        have hl : spec.letter = some c := by simpa using List.find?_some hf
        rw [(hb spec (List.mem_of_find?_eq_some hf) hn).1] at hl
        exact nomatch hl
      cases hv : spec.valued with
      | true =>
        by_cases hc : cs = []
        · subst hc
          have hstep : ∀ g, letters specs g [c] = .ok (.given g, some spec) := by
            intro g
            rw [letters, hf]
            simp only [hv, if_true]
          rw [hstep] at h
          cases h
          exact ⟨⟨(Bool.or_false _).symm, fun _ => hstep _⟩, fun _ hn => Option.some.inj hn ▸ hname⟩
        · obtain ⟨value, hstep⟩ := letters_valued hf hv hc
          rw [hstep] at h
          obtain ⟨_, he, hr⟩ := reads_map_addOption h
          cases he
          rw [decide_eq_false hname] at hr
          rw [funext hstep]
          exact ⟨hr, fun _ hn => nomatch hn⟩
      | false =>
        match hg : flag spec g with
        | .ok (.given g₁) =>
          rw [letters_flag hf hv hg] at h
          obtain ⟨hr, hneed⟩ := reads_letters hb h
          have hg' := reads_flag hg
          rw [decide_eq_false hname] at hg'
          exact ⟨hg'.trans hr (letters_flag hf hv), hneed⟩
        | .error _ | .ok .help | .ok .version | .ok (.command _ _ _) =>
          rw [letters, hf] at h
          simp [hv, hg] at h

end Letters

theorem mem_of_splitEquals {cs name value : List Char} (h : splitEquals cs = (name, some value)) : '=' ∈ cs := by
  refine Decidable.byContradiction fun hn => ?_
  have hd : cs.dropWhile (· ≠ '=') = [] := by
    have happend : (cs ++ []).dropWhile (· ≠ '=') = [].dropWhile (· ≠ '=') :=
      List.dropWhile_append_of_pos fun c hc => decide_eq_true fun he => hn (he ▸ hc)
    simpa using happend
  rw [splitEquals, hd] at h
  exact nomatch h

theorem eq_of_splitEquals {cs name : List Char} (h : splitEquals cs = (name, none)) : name = cs := by
  rw [splitEquals] at h
  split at h <;> cases h
  rfl

section Options

variable {specs : List OptionSpec} {g g' : Given} {need : Option OptionSpec} {long name : List Char} {spec : OptionSpec}

/-- An option written out without an equals sign; a value is still needed. -/
theorem reads_alone (hs : splitEquals long = (name, none))
    (hf : (specs.find? fun s => s.name = String.ofList name) = some spec)
    (hbare : spec.name = "strict" → spec.valued = false)
    (h : optionArgument specs g ('-' :: '-' :: long) = .ok (.given g', need)) :
    Reads (optionArgument specs · ('-' :: '-' :: long)) (fun g => (.given g, need)) g g' (spec.name = "strict") ∧
      ∀ spec ∈ need, spec.name ≠ "strict" := by
  have hstep : ∀ g, optionArgument specs g ('-' :: '-' :: long) =
      if spec.valued then .ok (.given g, some spec) else (flag spec g).map (·, none) := by
    intro g
    rw [optionArgument, hs]
    simp only [hf]
  rw [hstep] at h
  rw [funext hstep]
  cases hv : spec.valued with
  | true =>
    have hne : spec.name ≠ "strict" := fun hn => by simp [hbare hn] at hv
    simp only [hv, if_true] at h ⊢
    cases h
    rw [decide_eq_false hne]
    exact ⟨⟨(Bool.or_false _).symm, fun _ => rfl⟩, fun _ hn => Option.some.inj hn ▸ hne⟩
  | false =>
    simp only [hv, Bool.false_eq_true, if_false] at h ⊢
    match hg : flag spec g with
    | .error _ => rw [hg] at h; exact nomatch h
    | .ok p =>
      rw [hg] at h
      cases h
      have hr := reads_flag hg
      refine ⟨⟨hr.strict, fun hs => ?_⟩, fun _ hn => nomatch hn⟩
      rw [hr.beside hs]
      rfl

/-- An option written out with a value after an equals sign is not the switch. -/
theorem reads_equals {value : List Char} (hs : splitEquals long = (name, some value))
    (hf : (specs.find? fun s => s.name = String.ofList name) = some spec)
    (hbare : spec.name = "strict" → spec.valued = false)
    (h : optionArgument specs g ('-' :: '-' :: long) = .ok (.given g', need)) :
    Reads (optionArgument specs · ('-' :: '-' :: long)) (fun g => (.given g, need)) g g' false ∧
      ∀ spec ∈ need, spec.name ≠ "strict" := by
  have hstep : ∀ g, optionArgument specs g ('-' :: '-' :: long) =
      if spec.valued then (g.addOption spec.name (String.ofList value)).map fun g => (.given g, none)
      else .error (.needlessValue spec.name) := by
    intro g
    rw [optionArgument, hs]
    simp only [hf]
  rw [hstep] at h
  rw [funext hstep]
  cases hv : spec.valued with
  | true =>
    have hne : spec.name ≠ "strict" := fun hn => by simp [hbare hn] at hv
    simp only [hv, if_true] at h ⊢
    obtain ⟨_, he, hr⟩ := reads_map_addOption h
    cases he
    rw [decide_eq_false hne] at hr
    exact ⟨hr, fun _ hn => nomatch hn⟩
  | false =>
    simp only [hv, Bool.false_eq_true, if_false] at h
    exact nomatch h

/-- An option written out gives the switch if it is the switch. -/
theorem reads_long (hb : BareStrict specs) (h : optionArgument specs g ('-' :: '-' :: long) = .ok (.given g', need)) :
    Reads (optionArgument specs · ('-' :: '-' :: long)) (fun g => (.given g, need)) g g' (long = "strict".toList) ∧
      ∀ spec ∈ need, spec.name ≠ "strict" := by
  obtain ⟨⟨name, value⟩, hs⟩ : ∃ parts, splitEquals long = parts := ⟨_, rfl⟩
  match hf : specs.find? fun s => s.name = String.ofList name with
  | none =>
    rw [optionArgument, hs] at h
    simp only [hf] at h
    exact nomatch h
  | some spec =>
    have hbare : spec.name = "strict" → spec.valued = false := fun hn =>
      (hb spec (List.mem_of_find?_eq_some hf) hn).2
    cases value with
    | none =>
      have hname : spec.name = String.ofList long := by
        rw [← eq_of_splitEquals hs]
        simpa using List.find?_some hf
      have hlong : long = "strict".toList ↔ spec.name = "strict" := by
        rw [hname, ← String.toList_inj, @String.toList_ofList long]
      rw [decide_eq_decide.mpr hlong]
      exact reads_alone hs hf hbare h
    | some v =>
      have hlong : long ≠ "strict".toList := by
        intro hl
        have hmem := mem_of_splitEquals hs
        rw [hl] at hmem
        exact absurd hmem (by decide)
      rw [decide_eq_false hlong]
      exact reads_equals hs hf hbare h

/-- **One option argument gives the switch if it is the switch.** -/
theorem reads_optionArgument (hb : BareStrict specs) {arg : List Char}
    (h : optionArgument specs g arg = .ok (.given g', need)) :
    Reads (optionArgument specs · arg) (fun g => (.given g, need)) g g' (arg = "--strict".toList) ∧
      ∀ spec ∈ need, spec.name ≠ "strict" := by
  have hstrict : "--strict".toList = '-' :: '-' :: "strict".toList := rfl
  rw [hstrict]
  by_cases hl : ∃ long, arg = '-' :: '-' :: long
  · obtain ⟨long, rfl⟩ := hl
    have hlong : '-' :: '-' :: long = '-' :: '-' :: "strict".toList ↔ long = "strict".toList := by simp
    rw [decide_eq_decide.mpr hlong]
    exact reads_long hb h
  · have hne : arg ≠ '-' :: '-' :: "strict".toList := fun he => hl ⟨_, he⟩
    rw [decide_eq_false hne]
    match arg with
    | [] => exact nomatch h
    | c :: short =>
      by_cases hc : c = '-'
      · subst hc
        have hstep : ∀ g, optionArgument specs g ('-' :: short) = letters specs g short := by
          intro g
          rw [optionArgument.eq_def]
          split
          · rename_i he
            exact absurd ⟨_, he⟩ hl
          · rename_i he
            cases he
            rfl
          · rename_i he
            exact absurd rfl (he short)
        rw [hstep] at h
        rw [funext hstep]
        exact reads_letters hb h
      · rw [optionArgument.eq_def] at h
        split at h
        · rename_i he
          exact absurd (List.cons.inj he).1 hc
        · rename_i he
          exact absurd (List.cons.inj he).1 hc
        · exact nomatch h

end Options

/-! ## All arguments -/

section Arguments

variable {specs : List OptionSpec} {stop : Bool} {g g₁ g₂ : Given} {arg value : String} {rest : List String}

theorem readArguments_option (hd : arg ≠ "--") (ho : isOption arg.toList = true)
    (h : optionArgument specs g arg.toList = .ok (.given g₁, none)) :
    readArguments specs stop g (arg :: rest) = readArguments specs stop g₁ rest := by
  rw [readArguments.eq_def]
  simp only [if_neg hd, if_pos ho, h]

theorem readArguments_value {spec : OptionSpec} (hd : arg ≠ "--") (ho : isOption arg.toList = true)
    (h : optionArgument specs g arg.toList = .ok (.given g₁, some spec)) (hv : ¬isOption value.toList = true) :
    readArguments specs stop g (arg :: value :: rest) =
      g₁.addOption spec.name value >>= fun g => readArguments specs stop g rest := by
  rw [readArguments.eq_def]
  simp only [if_neg hd, if_pos ho, h, if_neg hv]
  cases g₁.addOption spec.name value <;> rfl

/-- How reading can end without a text to give: with what it read, or at a command whose arguments are left. -/
inductive Ends : (Given → Progress) → List String → Prop where
  | given : Ends .given []
  | command (name : String) (rest : List String) : Ends (.command · name rest) rest

theorem ne_of_not_isOption (h : ¬isOption value.toList = true) : value ≠ "--" ∧ value ≠ "--strict" := by
  constructor <;> rintro rfl <;> exact h (by decide)

/-- Options do not end in a command. -/
theorem flag_ne_command {spec : OptionSpec} {name : String} : flag spec g ≠ .ok (.command g₁ name rest) := by
  intro h
  rw [flag] at h
  split at h
  · exact nomatch h
  split at h
  · exact nomatch h
  obtain ⟨_, he, -⟩ := reads_map_addOption h
  exact nomatch he

theorem letters_ne_command {name : String} {need : Option OptionSpec} : ∀ {cs : List Char} {g : Given},
    letters specs g cs ≠ .ok (.command g₁ name rest, need)
  | [], _ => fun h => nomatch h
  | c :: cs, g => by
    intro h
    rw [letters] at h
    split at h
    · exact nomatch h
    split at h
    · split at h
      · exact nomatch h
      · obtain ⟨_, he, -⟩ := reads_map_addOption h
        exact nomatch he
      · obtain ⟨_, he, -⟩ := reads_map_addOption h
        exact nomatch he
    · split at h
      · exact letters_ne_command h
      · rename_i hf
        cases h
        exact flag_ne_command hf
      · exact nomatch h

theorem optionArgument_ne_command {cs : List Char} {name : String} {need : Option OptionSpec} :
    optionArgument specs g cs ≠ .ok (.command g₁ name rest, need) := by
  intro h
  rw [optionArgument.eq_def] at h
  split at h
  · split at h
    split at h
    · exact nomatch h
    · split at h
      · exact nomatch h
      · rename_i spec _ _ _
        match hf : flag spec g with
        | .error _ => rw [hf] at h; exact nomatch h
        | .ok p =>
          rw [hf] at h
          cases h
          exact flag_ne_command hf
    · split at h
      · obtain ⟨_, he, -⟩ := reads_map_addOption h
        exact nomatch he
      · exact nomatch h
  · exact letters_ne_command h
  · exact nomatch h

/-- **Arguments give the switch if it is one of them before two dashes.** -/
theorem reads_arguments (hb : BareStrict specs) {result : Given → Progress} {left : List String}
    (he : Ends result left) {args : List String} (h : readArguments specs stop g args = .ok (result g₂)) :
    ∃ gives, Reads (readArguments specs stop · args) result g g₂ gives ∧
      givesStrict args = (gives || givesStrict left) := by
  fun_induction readArguments specs stop g args with
  | case1 g =>
    cases he <;> cases h
    exact ⟨false, ⟨(Bool.or_false _).symm, fun _ => rfl⟩, rfl⟩
  | case2 g hs =>
    cases he <;> cases h
    refine ⟨false, ⟨(Bool.or_false _).symm, fun _ => ?_⟩, rfl⟩
    rw [readArguments.eq_def]
    simp only [if_true, hs]
  | case4 g rest hs =>
    cases he <;> cases h
    refine ⟨false, ⟨?_, fun _ => ?_⟩, rfl⟩
    · rw [Given.foldl_addOperand, Bool.or_false]
      rfl
    · rw [readArguments.eq_def]
      simp only [if_true, if_neg hs, Given.foldl_addOperand]
      rfl
  | case6 g arg rest hd ho g₁ hg ih =>
    obtain ⟨gives, hr, hgives⟩ := ih h
    obtain ⟨hr₁, -⟩ := reads_optionArgument hb hg
    refine ⟨_, hr₁.trans hr (readArguments_option hd ho), ?_⟩
    rw [givesStrict_cons hd, hgives, Bool.or_assoc, decide_eq_decide.mpr String.toList_inj]
  | case10 g arg hd ho g₁ spec hg value rest hv g₃ ha ih =>
    obtain ⟨gives, hr, hgives⟩ := ih h
    obtain ⟨hr₁, hneed⟩ := reads_optionArgument hb hg
    have hr₂ := reads_addOption ha
    rw [decide_eq_false (hneed spec rfl)] at hr₂
    have hrest : Reads (fun g => g.addOption spec.name value >>= fun g => readArguments specs stop g rest) result g₁ g₂
        (false || gives) := hr₂.trans hr fun hg => by
      rw [hg]
      rfl
    refine ⟨_, hr₁.trans hrest fun hg => readArguments_value hd ho hg hv, ?_⟩
    have hval := ne_of_not_isOption hv
    rw [givesStrict_cons hd, givesStrict_cons hval.1, decide_eq_false hval.2, hgives, Bool.false_or, Bool.false_or,
      Bool.or_assoc, decide_eq_decide.mpr String.toList_inj]
  | case11 g arg rest hd ho stop' need h₀ h₁ hg =>
    cases he <;> cases h
    · cases need with
      | none => exact (h₀ _ rfl rfl).elim
      | some spec => exact (h₁ _ spec rfl rfl).elim
    · exact absurd hg optionArgument_ne_command
  | case12 g arg rest hd ho hs =>
    cases he <;> cases h
    refine ⟨false, ⟨(Bool.or_false _).symm, fun _ => ?_⟩, ?_⟩
    · rw [readArguments.eq_def]
      simp only [if_neg hd, if_neg ho, hs, if_true]
    · rw [givesStrict_cons hd, decide_eq_false (ne_of_not_isOption ho).2]
  | case13 g arg rest hd ho hs ih =>
    obtain ⟨gives, hr, hgives⟩ := ih h
    refine ⟨gives, ⟨hr.strict, fun hg => ?_⟩, ?_⟩
    · have hb := hr.beside hg
      rw [readArguments.eq_def]
      simp only [if_neg hd, if_neg ho, if_neg hs]
      exact hb
    · rw [givesStrict_cons hd, decide_eq_false (ne_of_not_isOption ho).2, hgives, Bool.false_or]
  | case3 | case5 | case7 | case8 | case9 => exact nomatch h

end Arguments

/-! ## Command lines -/

/-- What a command line that asks for a request looks like. -/
theorem ofArguments_eq_run {args : List String} {s : Switches} {r : Request}
    (h : Invocation.ofArguments args = .ok (.run s r)) :
    ∃ before name rest c after,
      readArguments (switchSpecs ++ [helpSpec, versionSpec]) true {} args = .ok (.command before name rest) ∧
      name ≠ helpSpec.name ∧ command? name = some c ∧
      readArguments (switchSpecs ++ [helpSpec] ++ c.options) false {} rest = .ok (.given after) ∧
      c.request after = .ok r ∧ s = switches before after := by
  rw [Invocation.ofArguments] at h
  split at h
  case h_5 before name rest hr =>
    split at h
    · match rest with
      | [] => exact nomatch h
      | [topic] =>
        rw [helpInvocation] at h
        split at h <;> exact nomatch h
      | _ :: _ :: _ => exact nomatch h
    rename_i hn
    split at h
    · rename_i c hc
      rw [CommandSpec.invocation] at h
      split at h
      case h_3 after ha =>
        match hq : c.request after with
        | .error _ => rw [hq] at h; exact nomatch h
        | .ok q =>
          rw [hq] at h
          cases h
          exact ⟨before, name, rest, c, after, hr, hn, hc, ha, hq, rfl⟩
      all_goals exact nomatch h
    · exact nomatch h
  all_goals exact nomatch h

theorem bareStrict_start : BareStrict (switchSpecs ++ [helpSpec, versionSpec]) := by
  rw [BareStrict]
  decide

/-- **`--strict` in front of a command line that lacks it asks for the same in strict mode.** -/
theorem ofArguments_strict_cons {args : List String} {s : Switches} {r : Request}
    (h : Invocation.ofArguments args = .ok (.run s r)) (hs : s.strict = false) :
    Invocation.ofArguments ("--strict" :: args) = .ok (.run { s with strict := true } r) := by
  obtain ⟨before, name, rest, c, after, hbefore, hname, hc, hafter, hr, rfl⟩ := ofArguments_eq_run h
  obtain ⟨gives, hreads, -⟩ := reads_arguments bareStrict_start (.command name rest) hbefore
  have hstart : readArguments (switchSpecs ++ [helpSpec, versionSpec]) true {} ("--strict" :: args) =
      readArguments (switchSpecs ++ [helpSpec, versionSpec]) true (Given.withStrict {}) args :=
    readArguments_option (by decide) (by decide) rfl
  have hbs : before.strict = false := (Bool.or_eq_false_iff.mp hs).1
  have has : after.strict = false := (Bool.or_eq_false_iff.mp hs).2
  rw [Invocation.ofArguments, hstart, hreads.beside hbs]
  simp only [if_neg hname, hc, CommandSpec.invocation, hafter, hr]
  have hswitches : switches before.withStrict after = { switches before after with strict := true } := by
    rw [switches, Given.get?_withStrict before (by decide), Given.get?_withStrict before (by decide)]
    rfl
  rw [hswitches]
  rfl

end ThermalLabel.Cli
