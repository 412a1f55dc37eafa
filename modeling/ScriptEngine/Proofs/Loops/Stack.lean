import ScriptEngine.Proofs.Loops.Nesting
import ScriptEngine.Proofs.Machine.Moves

/-!
# The loop stack follows lexical nesting

While scripts run that were read from source texts, the stack of loops is determined by where the
frames stand: each frame owns the loops around its instruction, outermost at the bottom. Only at the
beginning of a loop there may be one more, the loop itself, when the frame has come back to test the
condition again. `Accords` says this of a stack of frames and a stack of loops, `Accords.move` that
every move keeps it, and `loop_stack_is_nesting` reads it off for a frame at any depth.
-/

namespace ScriptEngine

/-- Loops, given outermost first, as they lie on the stack when they are owned at a depth. -/
def stacked (depth : Nat) (loops : List (Nat × Nat)) : List LoopContext :=
  (loops.map fun loop => ⟨loop.1, loop.2, depth⟩).reverse

theorem stacked_concat (depth first exit : Nat) (outer : List (Nat × Nat)) :
    stacked depth (outer ++ [(first, exit)]) = ⟨first, exit, depth⟩ :: stacked depth outer := by
  simp only [stacked, List.map_append, List.map_cons, List.map_nil, List.reverse_append,
    List.reverse_singleton, List.singleton_append]

theorem stacked_eq_cons {depth : Nat} {loops : List (Nat × Nat)} {loop : LoopContext}
    {outer : List LoopContext} (h : stacked depth loops = loop :: outer) :
    ∃ around, loops = around ++ [(loop.recheck, loop.exit)] ∧ outer = stacked depth around := by
  rcases List.eq_nil_or_concat loops with rfl | ⟨around, ⟨first, exit⟩, rfl⟩
  · cases h
  · rw [List.concat_eq_append, stacked_concat, List.cons.injEq] at h
    rw [← h.1, List.concat_eq_append]
    exact ⟨around, rfl, h.2.symm⟩

/-- The loops around the instruction of a frame as they lie on the stack. -/
def Frame.enclosing (frame : Frame) (depth : Nat) : List LoopContext :=
  stacked depth (loopsAround frame.script.instructions frame.ip)

/-- Some loops are those around the instruction of a frame, and perhaps the one that begins there. -/
def Frame.OwnsLoops (frame : Frame) (depth : Nat) (own : List LoopContext) : Prop :=
  own = frame.enclosing depth ∨ ∃ condition exit,
    frame.operation? = some (.loopStart condition exit) ∧
      own = ⟨frame.ip, exit, depth⟩ :: frame.enclosing depth

/-- A frame waits for another one at a command, behind which it goes on. -/
def Frame.AwaitedBy (callee caller : Frame) : Prop :=
  ∀ resume, callee.resume = some resume → resume.ip = caller.ip + 1 ∧
    ∃ use, caller.operation? = some (.command use)

/-- A frame of well nested code that stands at an instruction or at the end. -/
structure Frame.Placed (frame : Frame) : Prop where
  nested : WellNested 0 frame.script.instructions
  inside : frame.ip ≤ frame.script.instructions.length

/-- The loops are, frame by frame, those around the instructions of the frames. -/
def Accords : List Frame → List LoopContext → Prop
  | [], loops => loops = []
  | frame :: callers, loops =>
    frame.Placed ∧ (∀ caller ∈ callers.head?, frame.AwaitedBy caller) ∧
      ∃ own rest, loops = own ++ rest ∧ frame.OwnsLoops (callers.length + 1) own ∧
        Accords callers rest

variable {frame : Frame} {callers : List Frame} {loops own rest : List LoopContext} {depth : Nat}

theorem Frame.enclosing_depth {loop : LoopContext} (h : loop ∈ frame.enclosing depth) :
    loop.depth = depth := by
  simp only [enclosing, stacked, List.mem_reverse, List.mem_map] at h
  obtain ⟨_, -, rfl⟩ := h
  rfl

theorem Frame.OwnsLoops.depth_eq (h : frame.OwnsLoops depth own) {loop : LoopContext}
    (hm : loop ∈ own) : loop.depth = depth := by
  rcases h with rfl | ⟨_, exit, -, rfl⟩
  · exact enclosing_depth hm
  · rcases List.mem_cons.mp hm with rfl | hm
    · rfl
    · exact enclosing_depth hm

theorem Accords.depth_le (h : Accords callers loops) {loop : LoopContext} (hm : loop ∈ loops) :
    loop.depth ≤ callers.length := by
  induction callers generalizing loops with
  | nil => rw [show loops = [] from h] at hm; cases hm
  | cons frame callers ih =>
    obtain ⟨-, -, own, rest, rfl, ho, hr⟩ := h
    rw [List.length_cons]
    rcases List.mem_append.mp hm with hm | hm
    · exact Nat.le_of_eq (ho.depth_eq hm)
    · exact Nat.le_succ_of_le (ih hr hm)

/-- The loop on top of the stack is the innermost one of the frame if the frame owns it. -/
theorem Accords.own_of_split (ho : frame.OwnsLoops (callers.length + 1) own)
    (hr : Accords callers rest) {loop : LoopContext} {outer : List LoopContext}
    (hs : own ++ rest = loop :: outer) (hd : loop.depth = callers.length + 1) :
    ∃ outer', own = loop :: outer' ∧ outer = outer' ++ rest := by
  cases own with
  | nil =>
    have : loop.depth ≤ callers.length :=
      hr.depth_le (by rw [show rest = loop :: outer from hs]; exact List.mem_cons_self ..)
    omega
  | cons first own =>
    rw [List.cons_append, List.cons.injEq] at hs
    obtain ⟨rfl, hs⟩ := hs
    exact ⟨own, rfl, hs.symm⟩

theorem Frame.operation?_eq_some {operation : Operation} :
    frame.operation? = some operation ↔
      (operation, frame.ip) ∈ placed 0 frame.script.instructions :=
  mem_placed_zero.symm

theorem Frame.loopIn {condition : String} {exit : Nat}
    (h : frame.operation? = some (.loopStart condition exit)) :
    LoopIn 0 frame.script.instructions frame.ip exit :=
  ⟨condition, operation?_eq_some.mp h⟩

/-- Away from the beginning of a loop a frame owns exactly the loops around its instruction. -/
theorem Frame.OwnsLoops.eq_enclosing (h : frame.OwnsLoops depth own) {operation : Operation}
    (ho : frame.operation? = some operation) (hs : ∀ c e, operation ≠ .loopStart c e) :
    own = frame.enclosing depth := by
  rcases h with h | ⟨condition, exit, ho', -⟩
  · exact h
  · rw [ho, Option.some.injEq] at ho'
    exact absurd ho' (hs condition exit)

/-- At the beginning of a loop that is not on top of the stack. -/
theorem Frame.OwnsLoops.outside (h : frame.OwnsLoops depth own)
    (hi : inOwnLoop depth frame.ip (own ++ rest) = false) : own = frame.enclosing depth := by
  rcases h with h | ⟨_, exit, -, rfl⟩
  · exact h
  · exact absurd (inOwnLoop_iff.mpr ⟨_, _, List.cons_append, rfl, rfl⟩) (Bool.eq_false_iff.mp hi)

/-- At the beginning of a loop that is on top of the stack. -/
theorem Frame.OwnsLoops.inside {condition : String} {exit : Nat} {loop : LoopContext}
    {outer : List LoopContext} (h : frame.OwnsLoops depth own)
    (ho : frame.operation? = some (.loopStart condition exit)) (hs : own = loop :: outer)
    (hr : loop.recheck = frame.ip) :
    loop = ⟨frame.ip, exit, depth⟩ ∧ outer = frame.enclosing depth := by
  rcases h with h | ⟨_, exit', ho', h⟩
  · -- The loops around an instruction begin before it.
    have hm : loop ∈ frame.enclosing depth := by rw [← h, hs]; exact List.mem_cons_self ..
    simp only [enclosing, stacked, List.mem_reverse, List.mem_map] at hm
    obtain ⟨⟨first, last⟩, hm, rfl⟩ := hm
    have := (mem_loopsAround.mp hm).2.1
    simp only at hr
    omega
  · rw [ho, Option.some.injEq, Operation.loopStart.injEq] at ho'
    rw [hs, List.cons.injEq] at h
    rw [h.1, ho'.2]
    exact ⟨rfl, h.2⟩

/-- Going on behind an instruction that does not belong to a loop. -/
theorem Accords.next (h : Accords (frame :: callers) loops) {operation : Operation}
    (stands : frame.operation? = some operation) (plain : operation.boundsLoop = false)
    (locals : Dictionary Value) :
    Accords ({ frame with ip := frame.ip + 1, locals } :: callers) loops := by
  obtain ⟨⟨hn, hi⟩, hw, own, rest, hs, ho, hr⟩ := h
  have hp := Frame.operation?_eq_some.mp stands
  have hlt := (placed_bounds hp).2
  refine ⟨⟨hn, by rw [Nat.zero_add] at hlt; exact hlt⟩, hw, own, rest, hs, .inl ?_, hr⟩
  rw [ho.eq_enclosing stands (by rintro _ _ rfl; cases plain), Frame.enclosing, Frame.enclosing,
    hn.around_next hp plain]

/-- Every move keeps the loops in step with the frames, if all scripts are well nested. -/
theorem Accords.move {machine : Machine} {frames' : List Frame} {loops' : List LoopContext}
    (hscripts : ∀ name script, machine.scripts.get? name = some script →
      WellNested 0 script.instructions)
    (h : Accords (frame :: callers) loops)
    (hm : Move machine frame callers loops frames' loops') : Accords frames' loops' := by
  have hnext := @h.next
  obtain ⟨⟨hn, hi⟩, hw, own, rest, rfl, ho, hr⟩ := h
  -- The frame moves within its script; what is below it stays.
  have keep : ∀ (ip : Nat) (locals : Dictionary Value) (own' : List LoopContext),
      ip ≤ frame.script.instructions.length →
      ({ frame with ip, locals } : Frame).OwnsLoops (callers.length + 1) own' →
      Accords ({ frame with ip, locals } :: callers) (own' ++ rest) :=
    fun ip locals own' hi' ho' => ⟨⟨hn, hi'⟩, hw, own', rest, rfl, ho', hr⟩
  cases hm with
  | @next operation locals stands plain =>
    exact hnext stands (by cases operation <;> trivial) locals
  | @jump target stands =>
    have hj : JumpIn 0 frame.script.instructions frame.ip target :=
      stands.imp Frame.operation?_eq_some.mp (Exists.imp fun _ => Frame.operation?_eq_some.mp)
    have hown : own = frame.enclosing (callers.length + 1) := by
      rcases stands with stands | ⟨_, stands⟩ <;> exact ho.eq_enclosing stands (by simp)
    rw [hown]
    refine keep _ _ _ (by have := (hn.jumps hj).2.1; omega) (.inl ?_)
    rw [Frame.enclosing, Frame.enclosing, hn.around_jump hj]
  | @enterLoop condition exit stands outside =>
    have hl := Frame.loopIn stands
    rw [ho.outside outside, ← List.cons_append]
    refine keep _ _ _ (by have := hn.begins hl; omega) (.inl ?_)
    rw [Frame.enclosing, Frame.enclosing, hn.around_inside hl, stacked_concat]
  | @repeatLoop condition exit stands inside =>
    have hl := Frame.loopIn stands
    obtain ⟨loop, outer, hs, hd, hc⟩ := inOwnLoop_iff.mp inside
    obtain ⟨outer', hown, -⟩ := Accords.own_of_split ho hr hs hd
    obtain ⟨rfl, rfl⟩ := ho.inside stands hown hc
    refine keep _ _ _ (by have := hn.begins hl; omega) (.inl ?_)
    rw [hown, Frame.enclosing, Frame.enclosing, hn.around_inside hl, stacked_concat]
  | @skipLoop condition exit stands outside =>
    have hl := Frame.loopIn stands
    rw [ho.outside outside]
    refine keep _ _ _ (by have := hn.begins hl; omega) (.inl ?_)
    rw [Frame.enclosing, Frame.enclosing, hn.around_exit hl]
  | @leaveLoop condition exit loop outer stands split owned here =>
    have hl := Frame.loopIn stands
    obtain ⟨outer', hown, rfl⟩ := Accords.own_of_split ho hr split owned
    obtain ⟨-, rfl⟩ := ho.inside stands hown here
    refine keep _ _ _ (by have := hn.begins hl; omega) (.inl ?_)
    rw [Frame.enclosing, Frame.enclosing, hn.around_exit hl]
  | @endLoop start stands =>
    have hp := Frame.operation?_eq_some.mp stands
    obtain ⟨condition, hl⟩ := hn.ends hp
    rw [ho.eq_enclosing stands (by simp)]
    refine keep _ _ _ (by have := placed_bounds hl; omega) (.inr ⟨condition, frame.ip + 1, ?_, ?_⟩)
    · exact mem_placed_zero.mp hl
    · rw [Frame.enclosing, Frame.enclosing, hn.around_end hp, stacked_concat]
  | @breakLoop use loop outer stands split owned =>
    obtain ⟨outer', hown, rfl⟩ := Accords.own_of_split ho hr split owned
    obtain ⟨around, ha, rfl⟩ :=
      stacked_eq_cons ((ho.eq_enclosing stands (by simp)).symm.trans hown)
    obtain ⟨hl, hout⟩ := hn.around_outer ha
    refine keep _ _ _ (by have := hn.begins hl; omega) (.inl ?_)
    rw [Frame.enclosing, hn.around_exit hl, hout]
  | @continueLoop use loop outer stands split owned =>
    obtain ⟨outer', hown, rfl⟩ := Accords.own_of_split ho hr split owned
    obtain ⟨around, ha, rfl⟩ :=
      stacked_eq_cons ((ho.eq_enclosing stands (by simp)).symm.trans hown)
    obtain ⟨⟨condition, hl⟩, hout⟩ := hn.around_outer ha
    refine keep _ _ _ (by have := placed_bounds hl; omega) (.inr ⟨condition, loop.exit, ?_, ?_⟩)
    · exact mem_placed_zero.mp hl
    · rw [hown, Frame.enclosing, hout, ← owned]
  | @call use target script locals expected stands loaded =>
    refine ⟨⟨hscripts target script loaded, Nat.zero_le _⟩, ?_, [], own ++ rest, rfl, .inl ?_,
      ⟨hn, hi⟩, hw, own, rest, rfl, ho, hr⟩
    · rintro caller ⟨⟩ resume ⟨⟩
      exact ⟨rfl, use, stands⟩
    · rw [Frame.enclosing, loopsAround_zero]
      rfl
  | @finish caller others resume value called resumes =>
    subst called
    obtain ⟨hip, use, stands⟩ := hw caller rfl resume resumes
    have hk : (own ++ rest).filter (·.depth ≤ (caller :: others).length) = rest :=
      filter_above (fun loop => hr.depth_le) fun loop hm => by rw [ho.depth_eq hm]; omega
    rw [hk, Frame.deliver, hip]
    exact hr.next stands rfl _

/-! ## Whole runs -/

/-- The loops of a frame, seen from the whole stack. -/
theorem Accords.at {inner : List Frame} (h : Accords (inner ++ frame :: callers) loops) :
    frame.Placed ∧
      frame.OwnsLoops (callers.length + 1) (loops.filter (·.depth = callers.length + 1)) := by
  induction inner generalizing loops with
  | nil =>
    obtain ⟨hp, -, own, rest, rfl, ho, hr⟩ := h
    have hown : own.filter (·.depth = callers.length + 1) = own :=
      List.filter_eq_self.mpr fun loop hm => by simpa using ho.depth_eq hm
    have hrest : rest.filter (·.depth = callers.length + 1) = [] :=
      List.filter_eq_nil_iff.mpr fun loop hm => by
        have := hr.depth_le hm
        simp only [decide_eq_true_eq]
        omega
    rw [List.filter_append, hown, hrest, List.append_nil]
    exact ⟨hp, ho⟩
  | cons first inner ih =>
    obtain ⟨-, -, own, rest, rfl, ho, hr⟩ := h
    have hown : own.filter (·.depth = callers.length + 1) = [] :=
      List.filter_eq_nil_iff.mpr fun loop hm => by
        have := ho.depth_eq hm
        simp only [List.append_eq, List.length_append, List.length_cons] at this
        simp only [decide_eq_true_eq]
        omega
    rw [List.filter_append, hown, List.nil_append]
    exact ih hr

theorem Accords.start {script : Script} {locals : Dictionary Value}
    (h : WellNested 0 script.instructions) : Accords [{ script, locals }] [] := by
  refine ⟨⟨h, Nat.zero_le _⟩, ?_, [], [], rfl, .inl ?_, rfl⟩
  · rintro caller ⟨⟩
  · rw [Frame.enclosing, loopsAround_zero]
    rfl

theorem Engine.Reachable.accords {engine : Engine} {state : State}
    (hscripts : ∀ name script, engine.machine.scripts.get? name = some script →
      WellNested 0 script.instructions) (h : engine.Reachable state) :
    Accords state.context.frames state.context.loops := by
  refine h.keeps (P := fun state => Accords state.context.frames state.context.loops)
    (fun name script locals timers world hs => Accords.start (hscripts name script hs))
    fun before after ha hg => ?_
  obtain ⟨frame, callers, hf⟩ := hg.frames
  rw [hf] at ha
  exact ha.move hscripts (hg.move hf)

/-- The loop stack follows lexical nesting. Between two steps of a run of scripts that were read from
source texts, every frame stands at an instruction of its script or at the end, and the loops that it
owns are, from bottom to top, the loops of the script around that instruction, outermost first. If
the frame stands at the beginning of a loop, this loop may be on top of them. -/
theorem loop_stack_is_nesting {engine : Engine} {state : State} {inner callers : List Frame}
    {frame : Frame}
    (hscripts : ∀ name script, engine.machine.scripts.get? name = some script →
      ∃ path source, Script.parse path source = .ok script)
    (hreach : engine.Reachable state) (hframes : state.context.frames = inner ++ frame :: callers) :
    let depth := callers.length + 1
    let own := (state.context.loops.filter (·.depth = depth)).reverse
    let around := loopsAround frame.script.instructions frame.ip
    frame.ip ≤ frame.script.instructions.length ∧
      (own = around.map (fun loop => ⟨loop.1, loop.2, depth⟩) ∨
        ∃ condition exit, frame.operation? = some (.loopStart condition exit) ∧
          own = around.map (fun loop => ⟨loop.1, loop.2, depth⟩) ++ [⟨frame.ip, exit, depth⟩]) ∧
      around.Pairwise fun outer inner => outer.1 < inner.1 ∧ inner.2 < outer.2 := by
  have ha := hreach.accords fun name script hs =>
    let ⟨_, _, hp⟩ := hscripts name script hs
    Script.parse_wellNested hp
  rw [hframes] at ha
  obtain ⟨⟨hn, hi⟩, ho⟩ := ha.at
  refine ⟨hi, ?_, hn.around_nested frame.ip⟩
  rcases ho with ho | ⟨condition, exit, hs, ho⟩
  · rw [ho, Frame.enclosing, stacked, List.reverse_reverse]
    exact .inl rfl
  · rw [ho, Frame.enclosing, stacked, List.reverse_cons, List.reverse_reverse]
    exact .inr ⟨condition, exit, hs, rfl⟩

/-- A script that calls itself inside two loops. -/
def spiralSource : String :=
  "<script name=\"spiral\"><while when=\"a\"><while when=\"b\">" ++
    "<command name=\"Call\"><arg>spiral</arg></command></while></while></script>"

/-- The script of `spiralSource`. -/
def spiral : Script where
  name := "spiral"
  path := "spiral.script.xml"
  parameters := []
  returnType := .multi
  instructions :=
    [⟨.loopStart "a" 5, ⟨1, 23⟩, ⟨1, 119⟩⟩, ⟨.loopStart "b" 4, ⟨1, 39⟩, ⟨1, 111⟩⟩,
      ⟨.command ⟨"Call", ["spiral"], none, none⟩, ⟨1, 55⟩, ⟨1, 103⟩⟩,
      ⟨.loopEnd 1, ⟨1, 39⟩, ⟨1, 111⟩⟩, ⟨.loopEnd 0, ⟨1, 23⟩, ⟨1, 119⟩⟩]

/-- An engine with `spiral` alone, where an expression stands for itself. -/
def spirals : Engine where
  machine :=
    { commands := .general
      scripts := .ofList [("spiral", spiral)]
      evaluate := fun expression _ => .ok (.string expression) }
  stepLimit := 10

/-- The states of `spirals` after a number of steps. -/
def spiralsAfter : Nat → State
  | 0 => ⟨Context.start spiral .empty, {}⟩
  | n + 1 => (spirals.machine.step (spiralsAfter n)).2

theorem loop_stack_spiral :
    let frame : Frame := { script := spiral, ip := 2 }
    let callee : Frame := { script := spiral, resume := some ⟨3, none, .multi⟩ }
    let own := ((spiralsAfter 3).context.loops.filter (·.depth = 1)).reverse
    (spiralsAfter 3).context.frames = [callee, frame] ∧ own = [⟨0, 5, 1⟩, ⟨1, 4, 1⟩] ∧
      (own = (loopsAround spiral.instructions 2).map (fun loop => ⟨loop.1, loop.2, 1⟩) ∨
        ∃ condition exit, frame.operation? = some (.loopStart condition exit) ∧
          own = (loopsAround spiral.instructions 2).map (fun loop => ⟨loop.1, loop.2, 1⟩) ++
            [⟨2, exit, 1⟩]) := by
  intro frame callee own
  have hparse : Script.parse "spiral.script.xml" spiralSource = .ok spiral := by
    have hok : (Script.parse "spiral.script.xml" spiralSource).toOption = some spiral := by
      decide +kernel
    cases hp : Script.parse "spiral.script.xml" spiralSource with
    | error fault => rw [hp] at hok; cases hok
    | ok script => rw [hp] at hok; exact congrArg _ (Option.some.inj hok)
  have hscripts : ∀ name script, spirals.machine.scripts.get? name = some script →
      ∃ path source, Script.parse path source = .ok script := by
    intro name script hs
    have he : spirals.machine.scripts.entries = [("spiral", spiral)] := rfl
    rw [Dictionary.get?, he, List.lookup_cons] at hs
    split at hs
    · exact ⟨_, _, hparse.trans (congrArg _ (Option.some.inj hs))⟩
    · cases hs
  have hstep : ∀ n < 3, (spirals.machine.step (spiralsAfter n)).1 = .running none := by
    decide +kernel
  have hgoes : ∀ n < 3, spirals.machine.Goes (spiralsAfter n) (spiralsAfter (n + 1)) :=
    fun n hn => ⟨none, Prod.ext (hstep n hn) rfl⟩
  have hreach : spirals.Reachable (spiralsAfter 3) :=
    ⟨"spiral", [], (spiralsAfter 0).context, .empty, {}, rfl,
      ((Relation.ReflTransGen.single (hgoes 0 (by decide))).tail (hgoes 1 (by decide))).tail
        (hgoes 2 (by decide))⟩
  have hframes : (spiralsAfter 3).context.frames = [callee] ++ frame :: [] := by decide +kernel
  exact ⟨hframes, by decide +kernel, (loop_stack_is_nesting hscripts hreach hframes).2.1⟩

end ScriptEngine
