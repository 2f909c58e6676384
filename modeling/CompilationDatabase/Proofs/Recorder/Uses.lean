/-
Options told by their uses.

An option that is used is a switch, or has a value (`Use`); what options are given is
told by their uses, in whatever order (`Options.eq_of_uses_perm`).  While arguments are
read, the options so far and the uses still to come make up all of them.  What is used
once is not yet there when its use comes, so nothing is refused as repeated.

* `Options.take_of_perm` — a switch whose use is still to come is taken;
* `Options.setValue_of_perm` — a value whose use is still to come is set.
-/
import Mathlib.Data.List.Count
import CompilationDatabase.Recorder.Options

namespace CompilationDatabase.Recorder

/-- The options that take no value and let the reading go on. -/
inductive Switch where
  | append
  | raw
  | link
  | verbose
deriving DecidableEq, Repr

/-- The options with a value. -/
inductive Valued where
  | output
  | library
deriving DecidableEq, Repr

/-- An option as it is used once. -/
inductive Use where
  | switch (option : Switch)
  | value (option : Valued) (text : String)
deriving DecidableEq, Repr

/-- The switch as an option. -/
def Switch.flag : Switch → Flag
  | append => .append
  | raw => .raw
  | link => .link
  | verbose => .verbose

/-- The letter of the switch. -/
def Switch.letter : Switch → Char
  | append => 'a'
  | raw => 'r'
  | link => 'l'
  | verbose => 'v'

/-- How often the switch may be used: the verbose one is counted up to 255. -/
def Switch.limit : Switch → Nat
  | append | raw | link => 1
  | verbose => 255

/-- The option with a value as an option. -/
def Valued.flag : Valued → Flag
  | output => .output
  | library => .library

namespace Options

/-- How often the switch is used. -/
def times (o : Options) : Switch → Nat
  | .append => o.append.toNat
  | .raw => o.raw.toNat
  | .link => o.link.toNat
  | .verbose => o.verbosity

/-- The value that the option is used with. -/
def value? (o : Options) : Valued → Option String
  | .output => o.output
  | .library => o.library

/-- The uses that give the options: each value, and each switch as often as it is
used. -/
def uses (o : Options) : List Use :=
  [Valued.output, .library].flatMap (fun option => (o.value? option).toList.map (.value option)) ++
    [Switch.append, .raw, .link, .verbose].flatMap fun option =>
      List.replicate (o.times option) (.switch option)

/-- Whether options can be given: values are not empty, and no switch is used more often
than it may be. -/
structure IsGivable (o : Options) : Prop where
  value_ne : ∀ option, o.value? option ≠ some ""
  times_le : ∀ option, o.times option ≤ option.limit

/-! ### The options of some uses -/

variable {o p : Options} {later : List Use}

/-- How often an option is used so. -/
def count (o : Options) : Use → Nat
  | .switch option => o.times option
  | .value option text => if o.value? option = some text then 1 else 0

theorem count_uses (o : Options) (use : Use) : o.uses.count use = o.count use := by
  -- the uses with values of one option
  have hvalues (option : Valued) (use : Use) :
      ((o.value? option).toList.map (.value option)).count use
        = if (o.value? option).map (.value option) = some use then 1 else 0 := by
    cases o.value? option with
    | none => rfl
    | some text => simp [List.count_singleton, beq_iff_eq]
  cases use with
  | switch option =>
    cases option <;> simp [uses, count, List.count_replicate, hvalues]
  | value option text =>
    cases option <;> simp [uses, count, List.count_replicate, hvalues]

/-- Options with the same uses, in any order, are the same. -/
theorem eq_of_uses_perm (h : o.uses.Perm p.uses) : o = p := by
  have hcount (use : Use) : o.count use = p.count use := by
    rw [← count_uses, ← count_uses]
    exact h.count_eq use
  have htimes (option : Switch) : o.times option = p.times option := hcount (.switch option)
  have hvalue (option : Valued) : o.value? option = p.value? option := by
    apply Option.ext
    intro text
    have htext := hcount (.value option text)
    simp only [count] at htext
    split at htext <;> split at htext <;> simp_all
  have hbool : ∀ a b : Bool, a.toNat = b.toNat → a = b := by decide
  have happend := hbool _ _ (htimes .append)
  have hraw := hbool _ _ (htimes .raw)
  have hlink := hbool _ _ (htimes .link)
  have hverbosity : o.verbosity = p.verbosity := htimes .verbose
  have houtput : o.output = p.output := hvalue .output
  have hlibrary : o.library = p.library := hvalue .library
  cases o
  cases p
  congr

/-! ### One more use -/

theorem uses_perm_of_switch {o' : Options} {option : Switch}
    (htimes : ∀ other, o'.times other = o.times other + if option = other then 1 else 0)
    (hvalue : ∀ other, o'.value? other = o.value? other) :
    o'.uses.Perm (o.uses ++ [.switch option]) := by
  rw [List.perm_iff_count]
  intro use
  rw [List.count_append, count_uses, count_uses]
  cases use with
  | switch other => simp [count, htimes, List.count_singleton]
  | value other text => simp [count, hvalue]

theorem uses_perm_of_value {o' : Options} {option : Valued} {text : String}
    (htimes : ∀ other, o'.times other = o.times other) (hnone : o.value? option = none)
    (hvalue : ∀ other, o'.value? other = if option = other then some text else o.value? other) :
    o'.uses.Perm (o.uses ++ [.value option text]) := by
  rw [List.perm_iff_count]
  intro use
  rw [List.count_append, count_uses, count_uses]
  cases use with
  | switch other => simp [count, htimes]
  | value other text' =>
    simp only [count, hvalue, List.count_singleton]
    by_cases hother : option = other
    · subst hother
      simp [hnone]
    · simp [hother]

/-- A switch that may be used once more is taken. -/
theorem exists_take {option : Switch} (h : o.times option < option.limit) :
    ∃ o' : Options, o.take option.flag = .ok (.next o') ∧
      o'.uses.Perm (o.uses ++ [.switch option]) := by
  cases option with
  | append =>
    have hunset : o.append = false := by simpa [times, Switch.limit] using h
    refine ⟨{ o with append := true }, by simp [take, Switch.flag, hunset], ?_⟩
    exact uses_perm_of_switch (by rintro (_ | _ | _ | _) <;> simp [times, hunset]) fun _ => rfl
  | raw =>
    have hunset : o.raw = false := by simpa [times, Switch.limit] using h
    refine ⟨{ o with raw := true }, by simp [take, Switch.flag, hunset], ?_⟩
    exact uses_perm_of_switch (by rintro (_ | _ | _ | _) <;> simp [times, hunset]) fun _ => rfl
  | link =>
    have hunset : o.link = false := by simpa [times, Switch.limit] using h
    refine ⟨{ o with link := true }, by simp [take, Switch.flag, hunset], ?_⟩
    exact uses_perm_of_switch (by rintro (_ | _ | _ | _) <;> simp [times, hunset]) fun _ => rfl
  | verbose =>
    have hlt : o.verbosity + 1 ≤ 255 := h
    refine ⟨{ o with verbosity := o.verbosity + 1 }, ?_, ?_⟩
    · simp [take, Switch.flag, Nat.min_eq_left hlt]
    · exact uses_perm_of_switch (by rintro (_ | _ | _ | _) <;> simp [times]) fun _ => rfl

/-- A value is set for an option that has none. -/
theorem exists_setValue {option : Valued} {text : String} (hnone : o.value? option = none)
    (hne : text ≠ "") : ∃ o' : Options, o.setValue option.flag text = .ok o' ∧
      o'.uses.Perm (o.uses ++ [.value option text]) := by
  have hnonempty : text.isEmpty = false := by simpa using hne
  cases option with
  | output =>
    have hunset : o.output = none := hnone
    refine ⟨{ o with output := some text }, ?_, ?_⟩
    · simp [setValue, Valued.flag, hnonempty, hunset]
    · exact uses_perm_of_value (fun option => by cases option <;> rfl) hnone
        (by rintro (_ | _) <;> simp [value?])
  | library =>
    have hunset : o.library = none := hnone
    refine ⟨{ o with library := some text }, ?_, ?_⟩
    · simp [setValue, Valued.flag, hnonempty, hunset]
    · exact uses_perm_of_value (fun option => by cases option <;> rfl) hnone
        (by rintro (_ | _) <;> simp [value?])

/-- A switch whose use is still to come is taken. -/
theorem take_of_perm {option : Switch} (hp : p.IsGivable)
    (h : (o.uses ++ .switch option :: later).Perm p.uses) :
    ∃ o' : Options, o.take option.flag = .ok (.next o') ∧ (o'.uses ++ later).Perm p.uses := by
  have hlt : o.times option < option.limit := by
    have hcount := h.count_eq (.switch option)
    simp only [List.count_append, List.count_cons_self, count_uses, count] at hcount
    have hle := hp.times_le option
    omega
  obtain ⟨o', htake, hperm⟩ := exists_take hlt
  refine ⟨o', htake, (hperm.append_right later).trans ?_⟩
  simpa using h

/-- A value whose use is still to come is set. -/
theorem setValue_of_perm {option : Valued} {text : String} (hp : p.IsGivable)
    (h : (o.uses ++ .value option text :: later).Perm p.uses) :
    ∃ o' : Options, o.setValue option.flag text = .ok o' ∧ (o'.uses ++ later).Perm p.uses := by
  have hcount (text' : String) :
      o.count (.value option text') +
          (Use.value option text :: later).count (.value option text') =
        p.count (.value option text') := by
    rw [← count_uses, ← count_uses, ← List.count_append]
    exact h.count_eq _
  have htext : p.value? option = some text := by
    have hpos := hcount text
    simp only [List.count_cons_self, count] at hpos
    by_contra hne
    rw [if_neg hne] at hpos
    omega
  have hnone : o.value? option = none := by
    -- a value that is set already is the same, and then it is used twice
    refine Option.eq_none_iff_forall_ne_some.mpr fun set hset => ?_
    have hfirst := hcount set
    have hsecond := hcount text
    simp only [List.count_cons_self, count, hset, htext, Option.some.injEq, if_true]
      at hfirst hsecond
    by_cases hsame : set = text
    · rw [if_pos hsame] at hsecond
      omega
    · rw [if_neg fun heq => hsame heq.symm] at hfirst
      omega
  have hne : text ≠ "" := fun hempty => hp.value_ne option (hempty ▸ htext)
  obtain ⟨o', hset, hperm⟩ := exists_setValue hnone hne
  refine ⟨o', hset, (hperm.append_right later).trans ?_⟩
  simpa using h

end Options

end CompilationDatabase.Recorder
