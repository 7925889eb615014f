import ShellWalk.Proofs.Faults
import ShellWalk.Proofs.Transparency
import ShellWalk.Proofs.Unfolding

set_option autoImplicit false

namespace ShellWalk

namespace Step

def Round (untilTrue : Bool) (condition body : Step) (context next : Context) : Prop :=
  ∃ checked, condition context = .ok checked ∧ proceeds untilTrue checked = true ∧
    body checked = .ok next ∧ next.stops = false

inductive Repeats (untilTrue : Bool) (condition body : Step) : Context → Nat → Context → Prop where
  | none (context : Context) : Repeats untilTrue condition body context 0 context
  | next (context between after : Context) (count : Nat)
      (round : Round untilTrue condition body context between)
      (later : Repeats untilTrue condition body between count after) :
      Repeats untilTrue condition body context (count + 1) after

-- The unbounded loop, with the number of bodies that it runs.
inductive Loops (untilTrue : Bool) (condition body : Step) : Context → Nat → Context → Prop where
  | ended (context after : Context) (ran : condition context = .ok after)
      (refused : proceeds untilTrue after = false) : Loops untilTrue condition body context 0 after
  | stopped (context checked after : Context) (ran : condition context = .ok checked)
      (goes : proceeds untilTrue checked = true) (repeated : body checked = .ok after)
      (failed : after.stops = true) : Loops untilTrue condition body context 1 after
  | again (context between after : Context) (count : Nat)
      (round : Round untilTrue condition body context between)
      (later : Loops untilTrue condition body between count after) :
      Loops untilTrue condition body context (count + 1) after

-- After so many rounds the condition, run once more, still tells the loop to go on.
def Exceeds (untilTrue : Bool) (condition body : Step) (count : Nat) (context checked : Context) :
    Prop :=
  ∃ last, Repeats untilTrue condition body context count last ∧ condition last = .ok checked ∧
    proceeds untilTrue checked = true

-- What a loop leaves that goes over its limit: the context of the last condition, with the loop's
-- own report as the last of the errors.
def CutOff (untilTrue : Bool) (limit : Nat) (condition body : Step) (context after : Context) :
    Prop :=
  ∃ checked, Exceeds untilTrue condition body limit context checked ∧
    after = checked.addErrors [loopMessage untilTrue limit]

def Faultless (untilTrue : Bool) (condition body : Step) (context : Context) : Prop :=
  ∀ count last, Repeats untilTrue condition body context count last →
    ∃ checked, condition last = .ok checked ∧
      (proceeds untilTrue checked = true → ∃ after, body checked = .ok after)

section Loops

variable {untilTrue : Bool} {condition body : Step} {context after : Context}

theorem round_unique (one other : Context) (first : Round untilTrue condition body context one)
    (second : Round untilTrue condition body context other) : one = other := by
  obtain ⟨checked, ran, _, repeated, _⟩ := first
  obtain ⟨same, again, _, likewise, _⟩ := second
  rw [ran] at again
  cases again
  rw [repeated] at likewise
  cases likewise
  rfl

theorem exceeds_next (next checked : Context) (count : Nat)
    (round : Round untilTrue condition body context next)
    (exceeds : Exceeds untilTrue condition body count next checked) :
    Exceeds untilTrue condition body (count + 1) context checked := by
  obtain ⟨last, repeats, ran, goes⟩ := exceeds
  exact ⟨last, .next context next last count round repeats, ran, goes⟩

theorem faultless_next (next : Context) (round : Round untilTrue condition body context next)
    (faultless : Faultless untilTrue condition body context) :
    Faultless untilTrue condition body next :=
  fun count last repeats => faultless (count + 1) last (.next context next last count round repeats)

theorem rounds_round (limit left : Nat) (next : Context)
    (round : Round untilTrue condition body context next) :
    rounds untilTrue limit condition body (left + 1) context =
      rounds untilTrue limit condition body left next := by
  obtain ⟨checked, ran, goes, repeated, alive⟩ := round
  rw [rounds_eq, andThen_of_ok _ _ _ _ ran, if_pos goes]
  change body.andThen _ checked = _
  rw [andThen_of_ok _ _ _ _ repeated, if_neg (by simp [alive])]

theorem rounds_ok (limit left : Nat)
    (done : rounds untilTrue limit condition body left context = .ok after) :
    Loops untilTrue condition body context 0 after ∨
    (left = 0 ∧ ∃ checked, condition context = .ok checked ∧ proceeds untilTrue checked = true ∧
      after = checked.addErrors [loopMessage untilTrue limit]) ∨
    ∃ fewer, left = fewer + 1 ∧ (Loops untilTrue condition body context 1 after ∨
      ∃ next, Round untilTrue condition body context next ∧
        rounds untilTrue limit condition body fewer next = .ok after) := by
  rw [rounds_eq] at done
  obtain ⟨checked, ran, rest⟩ := andThen_ok _ _ context after done
  by_cases goes : proceeds untilTrue checked = true
  · rw [if_pos goes] at rest
    cases left with
    | zero =>
        cases rest
        exact .inr (.inl ⟨rfl, checked, ran, goes, rfl⟩)
    | succ fewer =>
        refine .inr (.inr ⟨fewer, rfl, ?_⟩)
        obtain ⟨next, repeated, onward⟩ := andThen_ok body _ checked after rest
        by_cases failed : next.stops = true
        · rw [if_pos failed] at onward
          cases onward
          exact .inl (.stopped context checked _ ran goes repeated failed)
        · rw [if_neg failed] at onward
          exact .inr ⟨next, ⟨checked, ran, goes, repeated, by simpa using failed⟩, onward⟩
  · rw [if_neg goes] at rest
    cases rest
    exact .inl (.ended context _ ran (by simpa using goes))

theorem loops_or_exceeds (limit left : Nat)
    (done : rounds untilTrue limit condition body left context = .ok after) :
    (∃ count ≤ left, Loops untilTrue condition body context count after) ∨
    ∃ checked, Exceeds untilTrue condition body left context checked ∧
      after = checked.addErrors [loopMessage untilTrue limit] := by
  induction left generalizing context with
  | zero =>
      rcases rounds_ok limit 0 done with ended | ⟨_, checked, ran, goes, same⟩ | ⟨_, more, _⟩
      · exact .inl ⟨0, Nat.le_refl 0, ended⟩
      · exact .inr ⟨checked, ⟨context, .none context, ran, goes⟩, same⟩
      · cases more
  | succ left ih =>
      rcases rounds_ok limit (left + 1) done with
        ended | ⟨none, _⟩ | ⟨fewer, same, stopped | onward⟩
      · exact .inl ⟨0, Nat.zero_le _, ended⟩
      · cases none
      · exact .inl ⟨1, Nat.le_add_left 1 left, stopped⟩
      · obtain ⟨next, round, rest⟩ := onward
        cases same
        rcases ih rest with ⟨count, few, looped⟩ | ⟨checked, exceeds, reported⟩
        · exact .inl ⟨count + 1, Nat.succ_le_succ few,
            .again context next after count round looped⟩
        · exact .inr ⟨checked, exceeds_next next checked left round exceeds, reported⟩

theorem rounds_loops (limit left count : Nat) (few : count ≤ left)
    (looped : Loops untilTrue condition body context count after) :
    rounds untilTrue limit condition body left context = .ok after := by
  induction looped generalizing left with
  | ended context after ran refused =>
      rw [rounds_eq, andThen_of_ok _ _ _ _ ran, if_neg (by simp [refused])]
  | stopped context checked after ran goes repeated failed =>
      obtain ⟨fewer, rfl⟩ : ∃ fewer, left = fewer + 1 := ⟨left - 1, by omega⟩
      rw [rounds_eq, andThen_of_ok _ _ _ _ ran, if_pos goes]
      change body.andThen _ checked = _
      rw [andThen_of_ok _ _ _ _ repeated, if_pos failed]
  | again context between after count round later ih =>
      obtain ⟨fewer, rfl⟩ : ∃ fewer, left = fewer + 1 := ⟨left - 1, by omega⟩
      rw [rounds_round limit fewer between round]
      exact ih fewer (by omega)

theorem loops_proceeds (count : Nat) (checked : Context) (ran : condition context = .ok checked)
    (goes : proceeds untilTrue checked = true)
    (looped : Loops untilTrue condition body context count after) : 0 < count := by
  cases looped with
  | ended _ _ same refused =>
      rw [ran] at same
      cases same
      rw [goes] at refused
      cases refused
  | stopped => exact Nat.one_pos
  | again => exact Nat.succ_pos _

theorem loops_round (count : Nat) (next : Context)
    (round : Round untilTrue condition body context next)
    (looped : Loops untilTrue condition body context count after) :
    ∃ fewer, count = fewer + 1 ∧ Loops untilTrue condition body next fewer after := by
  obtain ⟨checked, ran, goes, repeated, alive⟩ := round
  have begun := loops_proceeds count checked ran goes looped
  cases looped with
  | ended => omega
  | stopped _ _ _ same _ likewise failed =>
      rw [ran] at same
      cases same
      rw [repeated] at likewise
      cases likewise
      rw [alive] at failed
      cases failed
  | again _ between _ fewer first later =>
      cases round_unique next between ⟨checked, ran, goes, repeated, alive⟩ first
      exact ⟨fewer, rfl, later⟩

theorem loops_not_exceeds (left count : Nat) (few : count ≤ left)
    (looped : Loops untilTrue condition body context count after) (checked : Context) :
    ¬ Exceeds untilTrue condition body left context checked := by
  rintro ⟨last, repeats, ran, goes⟩
  -- The induction is on the rounds that the limit allows: each of them is one of the loop's own,
  -- and the loop would have to be over when the condition behind the last one lets it go on.
  induction repeats generalizing count with
  | none context =>
      have begun := loops_proceeds count checked ran goes looped
      omega
  | next context between last left round later ih =>
      obtain ⟨fewer, rfl, rest⟩ := loops_round count between round looped
      exact ih fewer (by omega) rest ran

theorem rounds_returns (limit left : Nat)
    (faultless : Faultless untilTrue condition body context) :
    ∃ result, rounds untilTrue limit condition body left context = .ok result := by
  induction left generalizing context with
  | zero =>
      obtain ⟨checked, ran, _⟩ := faultless 0 context (.none context)
      by_cases goes : proceeds untilTrue checked = true
      · rw [rounds_eq, andThen_of_ok _ _ _ _ ran, if_pos goes]
        exact ⟨_, rfl⟩
      · exact ⟨checked, rounds_loops limit 0 0 (Nat.le_refl 0)
          (.ended context checked ran (by simpa using goes))⟩
  | succ left ih =>
      obtain ⟨checked, ran, onward⟩ := faultless 0 context (.none context)
      by_cases goes : proceeds untilTrue checked = true
      · obtain ⟨next, repeated⟩ := onward goes
        by_cases failed : next.stops = true
        · exact ⟨next, rounds_loops limit (left + 1) 1 (by omega)
            (.stopped context checked next ran goes repeated failed)⟩
        · have round : Round untilTrue condition body context next :=
            ⟨checked, ran, goes, repeated, by simpa using failed⟩
          rw [rounds_round limit left next round]
          exact ih (faultless_next next round faultless)
      · exact ⟨checked, rounds_loops limit (left + 1) 0 (by omega)
          (.ended context checked ran (by simpa using goes))⟩

theorem while_fails (count : Nat) (looped : Loops false condition body context count after) :
    after.exitCode ≠ 0 := by
  induction looped with
  | ended context after ran refused => simpa [proceeds, Context.succeeded] using refused
  | stopped context checked after ran goes repeated failed =>
      simp only [Context.stops, Bool.and_eq_true] at failed
      simpa [Context.succeeded] using failed.2
  | again context between after count round later ih => exact ih

end Loops

inductive Passes : List Step → Context → Context → Prop where
  | none (context : Context) : Passes [] context context
  | next (step : Step) (rest : List Step) (context between after : Context)
      (ran : step context = .ok between) (alive : between.stops = false)
      (later : Passes rest between after) : Passes (step :: rest) context after

theorem sequence_passes (front rest : List Step) (start context : Context)
    (passed : Passes front start context) :
    sequence (front ++ rest) start = sequence rest context := by
  induction passed with
  | none context => rfl
  | next step others context between after ran alive later ih =>
      change step.andThen _ context = _
      rw [andThen_of_ok _ _ _ _ ran, if_neg (by simp [alive])]
      exact ih

end Step

def Registry.KeepsStrict (registry : Registry) (host : Host) : Prop :=
  ∀ name handler, registry.handlers.get? name = some handler →
    ∀ arguments before after, handler host name arguments before = .ok after →
      after.strict = before.strict

theorem Registry.standard_keepsStrict (host : Host) : standard.KeepsStrict host :=
  fun name handler found arguments before after done =>
    (standard_wellBehaved host name handler found arguments before after done).strict

namespace Walk

variable {shell : Shell} {bodies : Node → Prop} {loose : Prop} {least : Nat}

theorem traced_returns (step : Step) (traced : Traced bodies (fun _ => False) False least step)
    (before : Context) (stored : before.Stores bodies) (deep : least ≤ before.callDepth) :
    ∃ after, step before = .ok after ∧ after.Stores bodies ∧ least ≤ after.callDepth := by
  have sound := traced.sound before stored fun _ => deep
  cases ran : step before with
  | error halt =>
      rw [ran] at sound
      exact sound.elim
  | ok after =>
      rw [ran] at sound
      refine ⟨after, rfl, sound, ?_⟩
      rw [(traced.stacked id before after ran).callDepth]
      exact deep

theorem faultless_of_traced (untilTrue : Bool) (condition body : Step)
    (checks : Traced bodies (fun _ => False) False least condition)
    (repeated : Traced bodies (fun _ => False) False least body) (context : Context)
    (stored : context.Stores bodies) (deep : least ≤ context.callDepth) :
    Step.Faultless untilTrue condition body context := by
  intro count last repeats
  induction repeats with
  | none context =>
      obtain ⟨checked, ran, kept, level⟩ := traced_returns condition checks context stored deep
      refine ⟨checked, ran, fun _ => ?_⟩
      obtain ⟨after, finished, _⟩ := traced_returns body repeated checked kept level
      exact ⟨after, finished⟩
  | next context between after count round later ih =>
      obtain ⟨checked, ran, _, finished, _⟩ := round
      obtain ⟨_, checking, kept, level⟩ := traced_returns condition checks context stored deep
      cases ran.symm.trans checking
      obtain ⟨_, ending, left, last⟩ := traced_returns body repeated checked kept level
      cases finished.symm.trans ending
      exact ih left last

theorem complete_grounds (returns : shell.registry.Returns shell.host)
    (keeps : shell.registry.KeepsStack shell.host) :
    Grounds shell Node.Complete (fun _ => False) False where
  returns := returns
  stacked := fun _ => keeps
  unscoped := id
  overflown := id
  closed := fun whole part complete member inner reached =>
    complete inner (.part whole part member reached)
  lacking := fun node missing complete => complete node .self missing

theorem strict_conserved : Conserved fun before after => after.strict = before.strict where
  refl := fun _ => rfl
  trans := fun _ _ _ first second => second.trans first
  setVariable := fun _ _ _ => rfl
  unsetVariable := fun _ _ => rfl
  define := fun _ _ _ => rfl
  addErrors := fun _ _ => rfl
  setExitCode := fun _ _ => rfl
  inScope := fun context after popped inner done => by
    rw [Context.popScope_ok after popped done]
    exact inner
  called := fun _ _ _ inner => inner

end Walk

theorem Step.passes_keeps {Q : Context → Context → Prop} (conserved : Conserved Q)
    (front : List Step) (kept : ∀ step ∈ front, step.Keeps Q) (start context : Context)
    (passed : Passes front start context) : Q start context := by
  induction passed with
  | none context => exact conserved.refl context
  | next step others context between after ran _ _ ih =>
      have first := kept step (List.mem_cons_self ..) context between ran
      exact conserved.trans _ _ _ first
        (ih fun other member => kept other (List.mem_cons_of_mem _ member))

namespace Shell

variable (shell : Shell)

theorem within_strict (keeps : shell.registry.KeepsStrict shell.host) (room : Nat) (node : Node) :
    (shell.within room node).Keeps fun before after => after.strict = before.strict :=
  Walk.strict_conserved.within shell (Conserved.handle shell (shell.registry.run_of_handlers
    shell.host keeps fun _ _ _ => rfl)) room node

theorem loop_faultless (returns : shell.registry.Returns shell.host)
    (behaved : shell.registry.WellBehaved shell.host) (untilTrue : Bool) (condition : List Node)
    (body : Option Node) (context : Context)
    (complete : ∀ node ∈ condition ++ body.toList, node.Complete)
    (stored : context.Stores Node.Complete) :
    Step.Faultless untilTrue (shell.sequence condition) (Walk.slotWith shell.walk body)
      context := by
  have grounds := Walk.complete_grounds returns
    (Registry.WellBehaved.keepsStack shell.registry shell.host behaved)
  refine Walk.faultless_of_traced untilTrue _ _ ?_ ?_ context stored (Nat.zero_le _)
  · exact Walk.traced_control.flow.sequence condition (fun _ => shell.walk) fun node member =>
      Walk.traced_walk grounds node (complete node (List.mem_append_left _ member))
  · cases body with
    | none => exact Walk.traced_control.skip
    | some node => exact Walk.traced_walk grounds node (complete node (by simp))

theorem loop_ok (room : Nat) (untilTrue : Bool) (source : Source) (condition : List Node)
    (body : Option Node) (context after : Context)
    (done : shell.within room (.loop untilTrue source condition body) context = .ok after) :
    (∃ count ≤ shell.limits.iterations, Step.Loops untilTrue (shell.sequenceWithin room condition)
      (Walk.slotWith (shell.within room) body) context count after) ∨
    Step.CutOff untilTrue shell.limits.iterations (shell.sequenceWithin room condition)
      (Walk.slotWith (shell.within room) body) context after := by
  rw [within_loop] at done
  exact Step.loops_or_exceeds _ _ done

end Shell

theorem bounded_loop_refines (shell : Shell) (untilTrue : Bool) (source : Source)
    (condition : List Node) (body : Option Node) (context : Context) :
    let check := shell.sequence condition
    let round := Walk.slotWith shell.walk body
    let limit := shell.limits.iterations
    let run := shell.walk (.loop untilTrue source condition body) context
    (∀ after, (run = .ok after ∧ ¬ Step.CutOff untilTrue limit check round context after) ↔
      ∃ count ≤ limit, Step.Loops untilTrue check round context count after) ∧
    (Step.Faultless untilTrue check round context →
      (¬ ∃ after, ∃ count ≤ limit, Step.Loops untilTrue check round context count after) →
      ∃ after, run = .ok after ∧ Step.CutOff untilTrue limit check round context after) ∧
    (shell.registry.Returns shell.host → shell.registry.WellBehaved shell.host →
      (∀ node ∈ condition ++ body.toList, node.Complete) → context.Stores Node.Complete →
      Step.Faultless untilTrue check round context) := by
  intro check round limit run
  refine ⟨fun after => ⟨?_, ?_⟩, ?_, ?_⟩
  · rintro ⟨done, whole⟩
    exact (shell.loop_ok _ untilTrue source condition body context after done).resolve_right whole
  · rintro ⟨count, few, looped⟩
    constructor
    · change shell.walk _ context = _
      unfold Shell.walk
      rw [shell.within_loop]
      exact Step.rounds_loops limit limit count few looped
    · rintro ⟨checked, exceeds, _⟩
      exact Step.loops_not_exceeds limit count few looped checked exceeds
  · intro faultless endless
    obtain ⟨after, done⟩ := Step.rounds_returns limit limit faultless
    have walked : run = .ok after := by
      change shell.walk _ context = _
      unfold Shell.walk
      rw [shell.within_loop]
      exact done
    refine ⟨after, walked, ?_⟩
    refine (shell.loop_ok _ untilTrue source condition body context after walked).resolve_left ?_
    exact fun looped => endless ⟨after, looped⟩
  · exact fun returns behaved =>
      shell.loop_faultless returns behaved untilTrue condition body context

theorem bounded_loop_refines_at_bound :
    let loop := Node.ofLoop false [.ofCommand "f" [] []]
      (.ofFunction "f" (.ofCommand "false" [] []))
    let context := (Context.start .simulate .empty false).define "f" (.ofCommand "true" [] [])
    (∃ after, Shell.walk ⟨.void, .standard, ⟨1, 1⟩⟩ loop context = .ok after ∧
      after.exitCode = 1 ∧ after.errors = []) ∧
    ∃ after, Shell.walk ⟨.void, .standard, ⟨0, 1⟩⟩ loop context = .ok after ∧
      after.exitCode = 0 ∧ after.errors = ["while loop exceeded maximum iterations (0)"] := by
  intro loop context
  have refines := fun limits => bounded_loop_refines ⟨.void, .standard, limits⟩ false (.ofText "")
    [.ofCommand "f" [] []] (some (.ofFunction "f" (.ofCommand "false" [] []))) context
  constructor
  · obtain ⟨settled, _, _⟩ := refines ⟨1, 1⟩
    have looped : ∃ after, Step.Loops false (Shell.sequence ⟨.void, .standard, ⟨1, 1⟩⟩
        [.ofCommand "f" [] []]) (Walk.slotWith (Shell.walk ⟨.void, .standard, ⟨1, 1⟩⟩)
          (some (.ofFunction "f" (.ofCommand "false" [] [])))) context 1 after ∧
        after.exitCode = 1 ∧ after.errors = [] :=
      ⟨_, .again _ _ _ 0 ⟨_, rfl, rfl, rfl, rfl⟩ (.ended _ _ rfl rfl), rfl, rfl⟩
    obtain ⟨after, ends, code, errors⟩ := looped
    exact ⟨after, ((settled after).mpr ⟨1, Nat.le_refl 1, ends⟩).1, code, errors⟩
  · obtain ⟨_, exceeded, sound⟩ := refines ⟨0, 1⟩
    have complete : ∀ node ∈ [Node.ofCommand "f" [] []] ++
        (some (Node.ofFunction "f" (.ofCommand "false" [] []))).toList, node.Complete := by
      intro node member
      rcases List.mem_cons.mp member with rfl | body
      · exact Node.complete_ofCommand "f" []
      · cases List.mem_singleton.mp body
        exact Node.complete_ofFunction "f" _ (Node.complete_ofCommand "false" [])
    have stored : context.Stores Node.Complete :=
      Context.stores_define Node.Complete _ "f" _ (fun _ _ found => by cases found)
        (Node.complete_ofCommand "true" [])
    have faultless := sound (Registry.standard_handlers_return .void)
      (Registry.standard_wellBehaved .void) complete stored
    obtain ⟨after, done, checked, ⟨last, repeats, ran, _⟩, rfl⟩ := exceeded faultless (by
      rintro ⟨after, count, few, looped⟩
      cases looped with
      | ended _ _ ran refused =>
          cases ran
          cases refused
      | _ => exact absurd few (Nat.not_succ_le_zero _))
    cases repeats
    cases ran
    have message : Step.loopMessage false 0 = "while loop exceeded maximum iterations (0)" := by
      decide
    exact ⟨_, done, rfl, congrArg (fun line => [line]) message⟩

theorem while_succeeds_iff_cut_off (shell : Shell) (room : Nat) (source : Source)
    (condition : List Node) (body : Option Node) (context after : Context)
    (done : shell.within room (.loop false source condition body) context = .ok after) :
    let cut := Step.CutOff false shell.limits.iterations (shell.sequenceWithin room condition)
      (Walk.slotWith (shell.within room) body) context after
    (after.exitCode = 0 ↔ cut) ∧
    ∀ (front rest : List Node) (start : Context),
      Step.Passes (front.map (shell.within room)) start context →
      let whole :=
        shell.sequenceWithin room (front ++ .loop false source condition body :: rest) start
      (shell.registry.KeepsStrict shell.host → start.strict = true →
        (cut → whole = shell.sequenceWithin room rest after) ∧ (¬ cut → whole = .ok after)) ∧
      (cut ∨ after.strict = false → whole = shell.sequenceWithin room rest after) ∧
      (¬ cut → after.strict = true → whole = .ok after) := by
  intro cut
  have success : after.exitCode = 0 ↔ cut := by
    constructor
    · intro zero
      refine (shell.loop_ok room false source condition body context after done).resolve_left ?_
      rintro ⟨count, _, looped⟩
      exact Step.while_fails count looped zero
    · rintro ⟨checked, ⟨last, _, _, goes⟩, rfl⟩
      have zero : checked.exitCode = 0 := by
        simpa [Step.proceeds, Context.succeeded] using goes
      exact zero
  refine ⟨success, ?_⟩
  intro front rest start passed whole
  have reached : whole =
      if after.stops then .ok after else shell.sequenceWithin room rest after := by
    unfold whole Shell.sequenceWithin
    rw [List.map_append, Step.sequence_passes _ _ start context passed]
    exact Step.andThen_of_ok _ _ context after done
  have onward : cut ∨ after.strict = false → whole = shell.sequenceWithin room rest after := by
    intro goes
    have alive : after.stops = false := by
      rcases goes with exceeded | lenient
      · simp [Context.stops, Context.succeeded, success.mpr exceeded]
      · simp [Context.stops, lenient]
    rw [reached, if_neg (by simp [alive])]
  have ended : ¬ cut → after.strict = true → whole = .ok after := by
    intro ended strict
    have failed : after.exitCode ≠ 0 := fun zero => ended (success.mp zero)
    rw [reached, if_pos (by simp [Context.stops, Context.succeeded, strict, failed])]
  refine ⟨fun keeps strict => ?_, onward, ended⟩
  have before : context.strict = start.strict := by
    refine Step.passes_keeps Walk.strict_conserved _ (fun step member => ?_) start context passed
    obtain ⟨node, _, rfl⟩ := List.mem_map.mp member
    exact shell.within_strict keeps room node
  have still : after.strict = true := by
    rw [shell.within_strict keeps room _ context after done, before, strict]
  exact ⟨fun exceeded => onward (.inl exceeded), fun short => ended short still⟩

theorem while_succeeds_iff_cut_off_strict :
    let shell : Shell := ⟨.void, .standard, ⟨1, 1⟩⟩
    let context := Context.start .simulate .empty true
    let looping := fun condition => Node.ofLoop false [.ofCommand condition [] []]
      (.ofCommand ":" [] [])
    let next := Node.ofAssignment "X" (.ofWord "1")
    (∃ after, shell.sequence [.ofCommand "true" [] [], looping "true", next] context = .ok after ∧
      after.local? "X" = some "1" ∧ after.errors = [Step.loopMessage false 1]) ∧
    ∃ after, shell.sequence [.ofCommand "true" [] [], looping "false", next] context = .ok after ∧
      after.local? "X" = none ∧ after.errors = [] := by
  intro shell context looping next
  have passed : Step.Passes [shell.walk (.ofCommand "true" [] [])] context context :=
    .next _ _ _ _ _ rfl rfl (.none _)
  have keeps : shell.registry.KeepsStrict shell.host := Registry.standard_keepsStrict .void
  constructor
  · have finished : ∃ after, shell.walk (looping "true") context = .ok after ∧
        after.exitCode = 0 ∧ ∃ last, shell.sequence [next] after = .ok last ∧
        last.local? "X" = some "1" ∧ last.errors = [Step.loopMessage false 1] :=
      ⟨_, rfl, rfl, _, rfl, rfl, rfl⟩
    obtain ⟨after, done, zero, last, ran, bound, errors⟩ := finished
    obtain ⟨success, siblings⟩ := while_succeeds_iff_cut_off shell 1 _ _ _ context after done
    have onward := ((siblings [.ofCommand "true" [] []] [next] context passed).1 keeps rfl).1
      (success.mp zero)
    exact ⟨last, onward.trans ran, bound, errors⟩
  · have finished : ∃ after, shell.walk (looping "false") context = .ok after ∧
        after.exitCode = 1 ∧ after.local? "X" = none ∧ after.errors = [] :=
      ⟨_, rfl, rfl, rfl, rfl⟩
    obtain ⟨after, done, one, unbound, errors⟩ := finished
    obtain ⟨success, siblings⟩ := while_succeeds_iff_cut_off shell 1 _ _ _ context after done
    have ended := ((siblings [.ofCommand "true" [] []] [next] context passed).1 keeps rfl).2
      fun cut => by
        have zero := success.mpr cut
        omega
    exact ⟨after, ended, unbound, errors⟩

-- A handler that answers with a fresh and lenient context lets the assignment be made behind a loop
-- that ended by itself.
theorem while_sibling_runs_lenient :
    let relax : Handler := fun _ _ _ context =>
      .ok ((Context.start context.mode context.visible false).setExitCode 1)
    let shell : Shell := ⟨.void, Registry.standard.register "relax" relax, ⟨1, 1⟩⟩
    let start := Context.start .simulate .empty true
    let loop := Node.ofLoop false [.ofCommand "relax" [] []] (.ofCommand ":" [] [])
    (∃ after, shell.walk loop start = .ok after ∧ after.exitCode = 1 ∧ after.errors = []) ∧
    ∃ last, shell.sequence [loop, .ofAssignment "X" (.ofWord "1")] start = .ok last ∧
      last.local? "X" = some "1" :=
  ⟨⟨_, rfl, rfl, rfl⟩, _, rfl, rfl⟩

end ShellWalk
