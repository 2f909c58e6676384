/-
How far the reading of an invocation gets at each argument.

Wherever a cursor may stand, a rule moves it over the arguments that it takes, or to the
end if there are fewer (`Cursor.snd_take`); those are enough for its effect, which reads
at most the first value (`one_lt_taken`).  Which arguments are taken together shows in
the arguments alone: they are the segments, and in the end a flag that has too few
arguments behind it (`pieces`).  The reading is one iteration after the other
(`scan_eq_iterate`), and each takes the next piece (`pieces_rest`).

* `Reads` — the iterations of the reading from a cursor on, with what each takes;
* `apply_makes_progress` — what a rule takes, and that the reading takes each argument
  once.
-/
import CompilationDatabase.Proofs.Compiler.Segments

namespace CompilationDatabase.Compiler

/-! ### Where a cursor may stand -/

namespace Cursor

/-- What may be done with a cursor. -/
inductive Move where
  /-- To look at the argument under it. -/
  | current
  | advance
  | skip
deriving DecidableEq, Repr

/-- The cursor behind a move. -/
def move (c : Cursor) : Move → Cursor
  | .current => c
  | .advance => c.advance.2
  | .skip => c.skip

/-- The cursor that was at the first argument, behind the moves. -/
def moved (arguments : List String) (moves : List Move) : Cursor :=
  moves.foldl move ⟨arguments, 0⟩

theorem arguments_move (c : Cursor) (m : Move) : (c.move m).arguments = c.arguments := by
  cases m with
  | current => rfl
  | advance => rw [move, snd_advance]; rfl
  | skip => rfl

theorem position_move_le {c : Cursor} (h : c.position ≤ c.arguments.length) (m : Move) :
    (c.move m).position ≤ c.arguments.length := by
  cases m with
  | current => exact h
  | advance => rw [move, snd_advance]; exact Nat.min_le_right _ _
  | skip => exact Nat.min_le_right _ _

/-- No moves lead beyond the end. -/
theorem moved_spec (arguments : List String) (moves : List Move) :
    (moved arguments moves).arguments = arguments ∧
      (moved arguments moves).position ≤ arguments.length := by
  suffices ∀ c : Cursor, c.arguments = arguments ∧ c.position ≤ arguments.length →
      (moves.foldl move c).arguments = arguments ∧
        (moves.foldl move c).position ≤ arguments.length from
    this ⟨arguments, 0⟩ ⟨rfl, Nat.zero_le _⟩
  induction moves with
  | nil => exact fun c hc => hc
  | cons m moves ih =>
    rintro c ⟨rfl, hposition⟩
    exact ih (c.move m) ⟨c.arguments_move m, position_move_le hposition m⟩

theorem position_lt_of_current? {c : Cursor} {token : String} (h : c.current? = some token) :
    c.position < c.arguments.length :=
  (List.getElem?_eq_some_iff.mp h).1

/-- The cursor `n` arguments on, but not beyond the end. -/
def forward (c : Cursor) (n : Nat) : Cursor :=
  { c with position := min (c.position + n) c.arguments.length }

/-- The arguments between two cursors. -/
def upTo (c behind : Cursor) : List String := c.rest.take (behind.position - c.position)

section

variable {c : Cursor} {m n : Nat}

theorem forward_of_le (h : c.position + n ≤ c.arguments.length) :
    c.forward n = { c with position := c.position + n } := by
  rw [forward, Nat.min_eq_left h]

theorem forward_of_ge (h : c.arguments.length ≤ c.position + n) :
    c.forward n = { c with position := c.arguments.length } := by
  rw [forward, Nat.min_eq_right h]

theorem forward_forward : (c.forward m).forward n = c.forward (m + n) := by
  simp only [forward]
  congr 1
  omega

theorem rest_forward : (c.forward n).rest = c.rest.drop n := by
  simp only [rest, forward, List.drop_drop]
  by_cases hle : c.position + n ≤ c.arguments.length
  · rw [Nat.min_eq_left hle]
  · rw [Nat.min_eq_right (by omega), List.drop_length, List.drop_eq_nil_of_le (by omega)]

theorem upTo_forward : c.upTo (c.forward n) = c.rest.take n := by
  have hlength : c.rest.length = c.arguments.length - c.position := List.length_drop
  rw [upTo, List.take_eq_take_iff]
  simp only [forward]
  omega

/-- Taking moves the cursor over what is asked for, but not beyond the end. -/
theorem snd_take (n : Nat) (c : Cursor) : (c.take n).2 = c.forward (n + 1) := by
  induction n generalizing c with
  | zero => rfl
  | succ n ih =>
    rw [take]
    cases hcurrent : c.skip.current? with
    | none =>
      -- the cursor is at the end already
      have hadvance : c.advance = (.error ⟨⟩, c.skip) := by rw [advance, hcurrent]
      have hend : c.arguments.length ≤ c.position + 1 := by
        have hlength := List.getElem?_eq_none_iff.mp hcurrent
        simp only [skip] at hlength
        omega
      calc _ = c.forward 1 := by rw [hadvance]; rfl
        _ = c.forward (n + 1 + 1) := by rw [forward_of_ge hend, forward_of_ge (by omega)]
    | some value =>
      have hadvance : c.advance = (.ok value, c.skip) := by rw [advance, hcurrent]
      calc _ = (c.skip.take n).2 := by
              rw [hadvance]
              dsimp only
              rcases c.skip.take n with ⟨_ | _, last⟩ <;> rfl
        _ = (c.forward 1).forward (n + 1) := ih c.skip
        _ = c.forward (n + 1 + 1) := by rw [forward_forward, Nat.add_comm 1]

end

end Cursor

/-! ### What a rule takes -/

/-- How many arguments are taken, that of the flag among them. -/
def Arity.taken (bare : Bool) : Arity → Nat
  | one => 1
  | two => 2
  | four => 4
  | joinedOrSeparate => if bare then 2 else 1

/-- Whether the effect reads the argument behind the flag. -/
def Effect.readsValue : Effect → Bool
  | architecture | fileList | language | output => true
  | action _ | file | option | aliasOf _ | ignore => false

/-- How many arguments the rule takes at the flag. -/
def Rule.taken (rule : Rule) (flag : String) : Nat :=
  rule.arity.taken (rule.matcher.isBare flag)

section

variable {fs : FileSystem} {directory token : String} {cursor : Cursor} {rule : Rule}
  {c : Classification}

theorem Rule.taken_eq (rule : Rule) (flag : String) : rule.taken flag = rule.extra flag + 1 := by
  rw [taken, extra]
  cases rule.arity with
  | joinedOrSeparate =>
    simp only [Arity.taken]
    split <;> rfl
  | _ => rfl

/-- Where an effect reads a value, the rule takes one. -/
theorem one_lt_taken (hrule : findRule token = some rule) (h : rule.effect.readsValue = true) :
    1 < rule.taken token := by
  have harity : ∀ rule ∈ rules, rule.effect.readsValue = true → rule.arity = .two := by
    decide +kernel
  have htwo := harity rule (List.mem_of_find?_eq_some hrule) h
  rw [Rule.taken, htwo]
  exact Nat.one_lt_two

/-- Only a list of files can make an effect fail. -/
theorem Rule.effectOn_eq_ok_or (rule : Rule) (fs : FileSystem) (directory flag : String)
    (values : List String) (c : Classification) :
    (∃ after, rule.effectOn fs directory flag values c = .ok after) ∨
      rule.effect = .fileList ∧
        ∃ fault, rule.effectOn fs directory flag values c = .error fault := by
  unfold effectOn
  cases heffect : rule.effect with
  | fileList =>
    rcases hresult : (readFileList fs directory (values.headD "")).map
        (fun files => { c with files }) with fault | after
    · exact .inr ⟨rfl, fault, hresult⟩
    · exact .inl ⟨after, hresult⟩
  | _ => exact .inl ⟨_, rfl⟩

/-- If there are as many arguments as the rule takes, it moves the cursor over them, and
the classification is what the effect makes of it, or is left alone. -/
theorem Rule.apply_of_le (h : cursor.position + rule.taken token ≤ cursor.arguments.length) :
    rule.apply fs directory token cursor c =
      let behind := { cursor with position := cursor.position + rule.taken token }
      match rule.effectOn fs directory token (cursor.rest.take (rule.taken token)).tail c with
      | .error fault => (.error (.unreadable fault), behind, c)
      | .ok after => (.ok (), behind, after) := by
  rw [taken_eq] at h ⊢
  have hvalues : (cursor.rest.take (rule.extra token + 1)).tail =
      cursor.rest.tail.take (rule.extra token) := by
    cases cursor.rest <;> simp
  have hlength : rule.extra token ≤ cursor.rest.tail.length := by
    simp only [Cursor.rest, List.length_tail, List.length_drop]
    omega
  obtain ⟨next, htake, -⟩ := Cursor.take_eq_ok hlength
  have hnext := Cursor.snd_take (rule.extra token) cursor
  rw [htake, Cursor.forward_of_le h] at hnext
  obtain rfl := hnext
  rw [hvalues]
  exact apply_of_take_eq_ok rule fs directory token c htake

/-- If there are fewer, the cursor is moved to the end and the classification is left
alone. -/
theorem Rule.apply_of_lt (hcurrent : cursor.current? = some token)
    (h : cursor.arguments.length < cursor.position + rule.taken token) :
    rule.apply fs directory token cursor c =
      (.error .endOfArguments, { cursor with position := cursor.arguments.length }, c) := by
  rw [taken_eq] at h
  have hlt := Cursor.position_lt_of_current? hcurrent
  have hlength : cursor.rest.tail.length < rule.extra token := by
    simp only [Cursor.rest, List.length_tail, List.length_drop]
    omega
  obtain ⟨next, htake⟩ := Cursor.take_eq_error hlength
  have hnext := Cursor.snd_take (rule.extra token) cursor
  rw [htake, Cursor.forward_of_ge (Nat.le_of_lt h)] at hnext
  obtain rfl := hnext
  exact apply_of_take_eq_error rule fs directory token c htake

end

/-! ### One iteration -/

/-- How many arguments are taken where the argument is met: one, unless a rule says
otherwise. -/
def takenAt (token : String) : Nat := ((findRule token).map (·.taken token)).getD 1

section

variable {fs : FileSystem} {directory token : String} {cursor behind : Cursor}
  {c after : Classification} {result : Except UnreadableList Classification}

theorem takenAt_eq_one (h : findRule token = none) : takenAt token = 1 := by
  rw [takenAt, h]
  rfl

theorem takenAt_eq_taken {rule : Rule} (h : findRule token = some rule) :
    takenAt token = rule.taken token := by
  rw [takenAt, h]
  rfl

theorem takenAt_pos (token : String) : 0 < takenAt token := by
  cases h : findRule token with
  | none => rw [takenAt_eq_one h]; exact Nat.one_pos
  | some rule => rw [takenAt_eq_taken h, rule.taken_eq]; exact Nat.succ_pos _

/-- An iteration moves the cursor over what is taken. -/
theorem cursor_iterate (fs : FileSystem) (directory token : String) (cursor : Cursor)
    (c : Classification) :
    (iterate fs directory token cursor c).cursor = cursor.forward (takenAt token) := by
  cases hrule : findRule token with
  | none =>
    rw [iterate_of_unmatched hrule, takenAt_eq_one hrule]
    rfl
  | some rule =>
    have hcursor := rule.cursor_apply fs directory token cursor c
    rw [Cursor.snd_take, ← rule.taken_eq] at hcursor
    rw [iterate_of_matched hrule, takenAt_eq_taken hrule, ← hcursor]
    rcases rule.apply fs directory token cursor c with ⟨(_ | fault) | _, behind, after⟩
    all_goals rfl

/-- Too few arguments behind a flag end the reading. -/
theorem iterate_of_lt {rule : Rule} (h : cursor.current? = some token)
    (hrule : findRule token = some rule)
    (hlt : cursor.arguments.length < cursor.position + rule.taken token) :
    iterate fs directory token cursor c =
      .last { cursor with position := cursor.arguments.length } (.ok c) := by
  rw [iterate_of_matched hrule, rule.apply_of_lt h hlt]

/-- Without a fault, the reading ends only where the arguments do. -/
theorem length_le_of_iterate_eq_last
    (hlast : iterate fs directory token cursor c = .last behind (.ok after)) :
    cursor.arguments.length ≤ cursor.position + takenAt token := by
  cases hrule : findRule token with
  | none =>
    rw [iterate_of_unmatched hrule] at hlast
    cases hlast
  | some rule =>
    rw [takenAt_eq_taken hrule]
    by_contra hlt
    rw [iterate_of_matched hrule, rule.apply_of_le (by omega)] at hlast
    cases heffect : rule.effectOn fs directory token
        (cursor.rest.take (rule.taken token)).tail c with
    | error fault =>
      rw [heffect] at hlast
      cases hlast
    | ok after =>
      rw [heffect] at hlast
      cases hlast

end

/-! ### The whole reading -/

/-- The arguments that are taken at once, one piece after the other; the last may lack
some. -/
def pieces : List String → List (List String)
  | [] => []
  | token :: rest =>
    (token :: rest).take (takenAt token) :: pieces ((token :: rest).drop (takenAt token))
termination_by arguments => arguments.length
decreasing_by
  have hpos := takenAt_pos token
  simp only [List.length_drop, List.length_cons]
  omega

/-- Each argument is in one piece, and each piece has one. -/
theorem pieces_spec (arguments : List String) :
    (pieces arguments).flatten = arguments ∧ ∀ piece ∈ pieces arguments, piece ≠ [] := by
  induction arguments using pieces.induct with
  | case1 => simp [pieces]
  | case2 token rest ih =>
    rw [pieces, List.flatten_cons, ih.1, List.take_append_drop]
    refine ⟨rfl, List.forall_mem_cons.mpr ⟨fun hnil => ?_, ih.2⟩⟩
    have hpos := takenAt_pos token
    rcases List.take_eq_nil_iff.mp hnil with hzero | hnil
    · omega
    · cases hnil

theorem length_pieces_le (arguments : List String) :
    (pieces arguments).length ≤ arguments.length := by
  induction arguments using pieces.induct with
  | case1 => simp [pieces]
  | case2 token rest ih =>
    have hpos := takenAt_pos token
    rw [pieces, List.length_cons]
    simp only [List.length_drop, List.length_cons] at ih ⊢
    omega

/-- The reading from a cursor on takes these arguments, a piece in each iteration, and
comes to this result. -/
inductive Reads (fs : FileSystem) (directory : String) :
    Cursor → Classification → List (List String) → Except UnreadableList Classification → Prop where
  | done {cursor : Cursor} {c : Classification} (h : cursor.current? = none) :
    Reads fs directory cursor c [] (.ok c)
  | next {token : String} {cursor behind : Cursor} {c after : Classification}
    {iterations : List (List String)} {result : Except UnreadableList Classification}
    (h : cursor.current? = some token)
    (hnext : iterate fs directory token cursor c = .next behind after)
    (hrest : Reads fs directory behind after iterations result) :
    Reads fs directory cursor c (cursor.upTo behind :: iterations) result
  | last {token : String} {cursor behind : Cursor} {c : Classification}
    {result : Except UnreadableList Classification} (h : cursor.current? = some token)
    (hlast : iterate fs directory token cursor c = .last behind result) :
    Reads fs directory cursor c [cursor.upTo behind] result

section

variable {fs : FileSystem} {directory token : String} {cursor : Cursor} {c : Classification}
  {iterations : List (List String)} {result : Except UnreadableList Classification}

/-- What an iteration takes is the next piece. -/
theorem pieces_rest (fs : FileSystem) (directory : String) (c : Classification)
    (h : cursor.current? = some token) :
    let behind := (iterate fs directory token cursor c).cursor
    pieces cursor.rest = cursor.upTo behind :: pieces behind.rest := by
  intro behind
  have hbehind : behind = cursor.forward (takenAt token) :=
    cursor_iterate fs directory token cursor c
  obtain ⟨rest, hrest⟩ := List.head?_eq_some_iff.mp (cursor.current?_eq_head? ▸ h)
  rw [hbehind, Cursor.upTo_forward, Cursor.rest_forward, hrest, pieces]

/-- What the reading takes are the pieces, one after the other, and all of them unless a
list of files cannot be read. -/
theorem Reads.prefix_pieces (h : Reads fs directory cursor c iterations result) :
    iterations <+: pieces cursor.rest ∧
      (iterations = pieces cursor.rest ∨ ∃ fault, result = .error fault) := by
  induction h with
  | @done cursor c h =>
    have hrest : cursor.rest = [] := by
      rwa [cursor.current?_eq_head?, List.head?_eq_none_iff] at h
    rw [hrest, pieces]
    exact ⟨List.prefix_refl [], .inl rfl⟩
  | @next token cursor behind c after iterations result h hnext _ ih =>
    have hpieces := pieces_rest fs directory c h
    rw [hnext] at hpieces
    simp only [Iteration.cursor] at hpieces
    rw [hpieces, List.cons_prefix_cons, List.cons_inj_right]
    exact ⟨⟨rfl, ih.1⟩, ih.2⟩
  | @last token cursor behind c result h hlast =>
    have hpieces := pieces_rest fs directory c h
    have hbehind := cursor_iterate fs directory token cursor c
    rw [hlast] at hpieces hbehind
    simp only [Iteration.cursor] at hpieces hbehind
    rw [hpieces]
    refine ⟨⟨pieces behind.rest, rfl⟩, ?_⟩
    cases result with
    | error fault => exact .inr ⟨fault, rfl⟩
    | ok after =>
      -- nothing is left behind the last iteration
      have hend := length_le_of_iterate_eq_last hlast
      have hrest : behind.rest = [] := by
        rw [hbehind, Cursor.forward_of_ge hend, Cursor.rest, List.drop_length]
      rw [hrest, pieces]
      exact .inl rfl

theorem Reads.result_eq_scan (h : Reads fs directory cursor c iterations result) :
    result = scan fs directory cursor c := by
  induction h with
  | done h => exact (scan_of_current?_eq_none h).symm
  | next h hnext _ ih => rw [scan_eq_iterate h, hnext, ih]
  | last h hlast => rw [scan_eq_iterate h, hlast]

/-- The reading goes one way only. -/
theorem Reads.unique {iterations' : List (List String)}
    {result' : Except UnreadableList Classification}
    (h : Reads fs directory cursor c iterations result)
    (h' : Reads fs directory cursor c iterations' result') : iterations = iterations' := by
  induction h generalizing iterations' with
  | done h =>
    cases h' with
    | done => rfl
    | next h' | last h' => rw [h] at h'; cases h'
  | next h hnext _ ih =>
    cases h' with
    | done h' => rw [h] at h'; cases h'
    | next h' hnext' hrest' =>
      obtain rfl := Option.some.inj (h.symm.trans h')
      obtain ⟨rfl, rfl⟩ := Iteration.next.inj (hnext.symm.trans hnext')
      rw [ih hrest']
    | last h' hlast' =>
      obtain rfl := Option.some.inj (h.symm.trans h')
      cases hnext.symm.trans hlast'
  | last h hlast =>
    cases h' with
    | done h' => rw [h] at h'; cases h'
    | next h' hnext' hrest' =>
      obtain rfl := Option.some.inj (h.symm.trans h')
      cases hlast.symm.trans hnext'
    | last h' hlast' =>
      obtain rfl := Option.some.inj (h.symm.trans h')
      obtain ⟨rfl, rfl⟩ := Iteration.last.inj (hlast.symm.trans hlast')
      rfl

/-- The reading comes to its end. -/
theorem exists_reads (fs : FileSystem) (directory : String) (cursor : Cursor)
    (c : Classification) :
    ∃ iterations, Reads fs directory cursor c iterations (scan fs directory cursor c) := by
  induction hn : cursor.remaining using Nat.strongRecOn generalizing cursor c with
  | ind n ih =>
    subst hn
    cases h : cursor.current? with
    | none =>
      rw [scan_of_current?_eq_none h]
      exact ⟨[], .done h⟩
    | some token =>
      rw [scan_eq_iterate h]
      have hfewer := remaining_iterate_lt h fs directory c
      cases hiterate : iterate fs directory token cursor c with
      | last behind result => exact ⟨_, .last h hiterate⟩
      | next behind after =>
        rw [hiterate] at hfewer
        obtain ⟨iterations, hreads⟩ := ih behind.remaining hfewer behind after rfl
        exact ⟨_, .next h hiterate hreads⟩

end

/-- **A rule takes exactly its arguments, or there are too few and none is looked at
again; and the reading takes each argument once.**  Wherever moves may lead a cursor, the
rule found for the argument there moves it over the arguments that the rule takes, the
values that the effect reads among them, and fails only if a list of files cannot be
read.  With fewer arguments left it moves to the end, and the classification stays as it
was.  The reading falls into iterations in one way, at most one for each argument: it
takes the pieces of the arguments in order, and leaves some only if a list of files
cannot be read. -/
theorem apply_makes_progress (arguments : List String) (fs : FileSystem) (directory : String)
    (c : Classification) :
    (∀ moves token rule, (Cursor.moved arguments moves).current? = some token →
      findRule token = some rule →
        let cursor := Cursor.moved arguments moves
        let taken := cursor.rest.take (rule.taken token)
        let outcome := rule.apply fs directory token cursor c
        (cursor.position + rule.taken token ≤ arguments.length →
          outcome.2.1 = ⟨arguments, cursor.position + rule.taken token⟩ ∧
            taken.length = rule.taken token ∧
            (rule.effect.readsValue = true → 1 < taken.length) ∧
            ((∃ after, rule.effectOn fs directory token taken.tail c = .ok after ∧
                outcome.1 = .ok () ∧ outcome.2.2 = after) ∨
              ∃ fault, rule.effectOn fs directory token taken.tail c = .error fault ∧
                rule.effect = .fileList ∧ outcome.1 = .error (.unreadable fault) ∧
                outcome.2.2 = c)) ∧
        (arguments.length < cursor.position + rule.taken token →
          outcome = (.error .endOfArguments, ⟨arguments, arguments.length⟩, c) ∧
            scan fs directory cursor c = .ok c)) ∧
    (let result := scan fs directory ⟨arguments, 0⟩ c
      ∃ iterations : List (List String),
        (∀ other result', Reads fs directory ⟨arguments, 0⟩ c other result' ↔
          other = iterations ∧ result' = result) ∧
        iterations.length ≤ arguments.length ∧ iterations <+: pieces arguments ∧
        (iterations = pieces arguments ∨ ∃ fault, result = .error fault)) ∧
    (pieces arguments).flatten = arguments ∧ ∀ piece ∈ pieces arguments, piece ≠ [] := by
  refine ⟨fun moves token rule hcurrent hrule => ?_, ?_, pieces_spec arguments⟩
  · obtain ⟨harguments, -⟩ := Cursor.moved_spec arguments moves
    intro cursor taken outcome
    refine ⟨fun hle => ?_, fun hlt => ?_⟩
    · have houtcome : outcome = _ := rule.apply_of_le (harguments.symm ▸ hle)
      have hbehind : { cursor with position := cursor.position + rule.taken token } =
          (⟨arguments, cursor.position + rule.taken token⟩ : Cursor) := by
        rw [← harguments]
      have htaken : taken.length = rule.taken token := by
        have hlength : cursor.arguments.length = arguments.length :=
          congrArg List.length harguments
        simp only [taken, Cursor.rest, List.length_take, List.length_drop]
        omega
      have hvalue : rule.effect.readsValue = true → 1 < taken.length := fun hreads =>
        htaken.symm ▸ one_lt_taken hrule hreads
      rcases rule.effectOn_eq_ok_or fs directory token taken.tail c with
        ⟨after, heffect⟩ | ⟨hlist, fault, heffect⟩
      · rw [heffect] at houtcome
        rw [houtcome]
        exact ⟨hbehind, htaken, hvalue, .inl ⟨after, heffect, rfl, rfl⟩⟩
      · rw [heffect] at houtcome
        rw [houtcome]
        exact ⟨hbehind, htaken, hvalue, .inr ⟨fault, heffect, hlist, rfl, rfl⟩⟩
    · have hbeyond := harguments.symm ▸ hlt
      refine ⟨harguments ▸ rule.apply_of_lt hcurrent hbeyond, ?_⟩
      rw [scan_eq_iterate hcurrent, iterate_of_lt hcurrent hrule hbeyond]
  · intro result
    obtain ⟨iterations, hreads⟩ := exists_reads fs directory ⟨arguments, 0⟩ c
    have hrest : (⟨arguments, 0⟩ : Cursor).rest = arguments := List.drop_zero
    obtain ⟨hinitial, hall⟩ := hrest ▸ hreads.prefix_pieces
    have hlength := Nat.le_trans hinitial.length_le (length_pieces_le arguments)
    refine ⟨iterations, fun other result' => ⟨fun h => ⟨h.unique hreads, h.result_eq_scan⟩, ?_⟩,
      hlength, hinitial, hall⟩
    rintro ⟨rfl, rfl⟩
    exact hreads

/-- A value that stands apart is taken with its flag, and where `-sectorder` lacks values
the reading ends. -/
theorem apply_makes_progress_sectorder :
    let arguments := ["-c", "a.c", "-D", "X", "-sectorder", "b"]
    let before := Cursor.moved arguments [.skip, .current, .advance]
    let behind := Cursor.moved arguments [.advance, .skip, .advance, .skip]
    let reached : Classification := { action := .compile, options := ["-DX"] }
    (∃ rule, findRule "-D" = some rule ∧
      rule.apply .empty "/" "-D" before {} = (.ok (), ⟨arguments, 4⟩, { options := ["-DX"] })) ∧
    (∃ rule, findRule "-sectorder" = some rule ∧
      rule.apply .empty "/" "-sectorder" behind reached =
        (.error .endOfArguments, ⟨arguments, 6⟩, reached)) ∧
    Reads .empty "/" ⟨arguments, 0⟩ {} [["-c"], ["a.c"], ["-D", "X"], ["-sectorder", "b"]]
      (.ok { action := .compile, files := ["a.c"], options := ["-DX"] }) := by
  intro arguments before behind reached
  refine ⟨?_, ?_, ?_⟩
  · obtain ⟨rule, hrule, htaken, heffect⟩ : ∃ rule, findRule "-D" = some rule ∧
        rule.taken "-D" = 2 ∧
        rule.effectOn .empty "/" "-D" ["X"] {} = .ok { options := ["-DX"] } :=
      ⟨_, rfl, by decide +kernel, rfl⟩
    obtain ⟨htakes, -⟩ := (apply_makes_progress arguments .empty "/" {}).1
      [.skip, .current, .advance] "-D" rule rfl hrule
    rw [htaken] at htakes
    obtain ⟨hcursor, -, -, hresult⟩ := htakes (by decide)
    rcases hresult with ⟨after, hafter, hok, hstate⟩ | ⟨fault, hfault, -⟩
    · obtain rfl := Except.ok.inj (heffect.symm.trans hafter)
      exact ⟨rule, hrule, Prod.ext hok (Prod.ext hcursor hstate)⟩
    · cases heffect.symm.trans hfault
  · obtain ⟨rule, hrule, htaken⟩ :
        ∃ rule, findRule "-sectorder" = some rule ∧ rule.taken "-sectorder" = 4 :=
      ⟨_, rfl, by decide +kernel⟩
    obtain ⟨-, hshort⟩ := (apply_makes_progress arguments .empty "/" reached).1
      [.advance, .skip, .advance, .skip] "-sectorder" rule rfl hrule
    rw [htaken] at hshort
    exact ⟨rule, hrule, (hshort (by decide)).1⟩
  · obtain ⟨-, ⟨iterations, hreads, -, -, hall⟩, -⟩ :=
      apply_makes_progress arguments .empty "/" {}
    have hresult : scan .empty "/" ⟨arguments, 0⟩ {} =
        .ok { action := .compile, files := ["a.c"], options := ["-DX"] } :=
      toOption_eq_some_iff.mp (by decide +kernel)
    have hpieces : pieces arguments = [["-c"], ["a.c"], ["-D", "X"], ["-sectorder", "b"]] := by
      decide +kernel
    rw [hreads, ← hresult, ← hpieces]
    refine ⟨?_, rfl⟩
    rcases hall with hall | ⟨fault, hfault⟩
    · exact hall.symm
    · cases hresult.symm.trans hfault

end CompilationDatabase.Compiler
