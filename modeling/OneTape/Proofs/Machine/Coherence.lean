import OneTape.Proofs.Machine.Effect
import OneTape.Proofs.Program.Lookup

namespace OneTape.Machine

structure Unbuilt (m : Machine) : Prop where
  tape : m.tape = .empty
  head : m.head = 0
  state : m.state = ""
  phase : m.phase = .idle

structure Coherent (m : Machine) : Prop where
  settled : m.refresh = m
  onTape : m.Unbuilt ∨ m.head < m.tape.size

theorem refresh_eq_of_ne_started {m : Machine} (h : m.phase ≠ .started) :
    m.refresh = { m with active := none } := by
  have hs : m.symbol? = none := by
    cases hp : m.phase with
    | started => exact absurd hp h
    | idle | halted => simp only [symbol?, hp]
  simp [refresh, hs]

theorem symbol?_of_started {m : Machine} (h : m.phase = .started) :
    m.symbol? = m.tape.read m.head := by
  simp only [symbol?, h]

theorem exists_read {t : Tape} {i : Nat} (h : i < t.size) : ∃ symbol, t.read i = some symbol :=
  ⟨_, List.getElem?_eq_getElem h⟩

theorem size_carryOut (m : Machine) (rule : Rule) (head : Nat) :
    (m.carryOut rule head).tape.size = m.tape.size :=
  List.length_set

theorem target?_lt {m : Machine} {action : Action} {head : Nat} (hm : m.head < m.tape.size)
    (h : m.target? action = some head) : head < m.tape.size := by
  cases action <;> simp only [target?] at h
  case left =>
    split at h
    · cases h
    · cases h; omega
  case right =>
    split at h
    · cases h; assumption
    · cases h
  case halt => cases h; exact hm

theorem target?_eq_none_iff {m : Machine} (h : m.head < m.tape.size) {action : Action} :
    m.target? action = none ↔
      action = .left ∧ m.head = 0 ∨ action = .right ∧ m.head + 1 = m.tape.size := by
  cases action with
  | left => simp [target?]
  | right =>
    simp only [target?, reduceCtorEq, false_and, true_and, false_or]
    split <;> simp <;> omega
  | halt => simp [target?]

theorem unbuilt_new (program : Program) : (new program).Unbuilt := ⟨rfl, rfl, rfl, rfl⟩

theorem settled_new (program : Program) : (new program).refresh = new program := rfl

section Perform

variable {m m' : Machine} {op : Operation} {answer : Except Error Answer}
  (h : Performed m op answer m')

include h

theorem Performed.settled (hm : m.refresh = m) : m'.refresh = m' := by
  cases h with
  | failed => exact hm
  | built => rfl
  | stepped hs =>
    cases hs with
    | skipped => exact hm
    | moved => rfl
    | halted => exact refresh_eq_of_ne_started (by simp)
  | reset => exact refresh_eq_of_ne_started (by simp [Machine.reset])
  | edited hop hp answer program =>
    rw [refresh_eq_of_ne_started (by simp [hp])] at hm ⊢
    rw [← hm]

theorem Performed.onTape (hm : m.head < m.tape.size) : m'.head < m'.tape.size := by
  cases h with
  | failed => exact hm
  | built hop tape state hh => exact hh
  | stepped hs =>
    cases hs with
    | skipped => exact hm
    | @moved rule _ head _ ht =>
      change head < (m.carryOut rule head).tape.size
      rw [size_carryOut]
      exact target?_lt hm ht
    | @halted rule =>
      change m.head < (m.carryOut rule m.head).tape.size
      rwa [size_carryOut]
  | reset => exact hm
  | edited => exact hm

theorem Performed.unbuilt (hm : m.Unbuilt) :
    (m'.Unbuilt ∧ ¬ (op.builds ∧ ∃ a, answer = .ok a)) ∨
      (m'.head < m'.tape.size ∧ op.builds ∧ ∃ a, answer = .ok a) := by
  have hsize : ¬ m.head < m.tape.size := by simp [hm.tape, Tape.empty, Tape.size]
  cases h with
  | failed => exact .inl ⟨hm, by simp⟩
  | built hop tape state hh => exact .inr ⟨hh, hop, _, rfl⟩
  | stepped hs =>
    cases hs with
    | skipped => exact .inl ⟨hm, by simp [Operation.builds]⟩
    | moved _ _ hlt | halted _ hlt => exact absurd hlt hsize
  | reset => exact .inl ⟨⟨hm.tape, hm.head, hm.state, rfl⟩, by simp [Operation.builds]⟩
  | edited hop => exact .inl ⟨⟨hm.tape, hm.head, hm.state, hm.phase⟩, by simp [hop]⟩

end Perform

theorem Coherent.perform {m : Machine} (hm : m.Coherent) (op : Operation) :
    (m.perform op).2.Coherent := by
  refine ⟨(m.performed op).settled hm.settled, ?_⟩
  obtain hu | ht := hm.onTape
  · exact ((m.performed op).unbuilt hu).imp And.left And.left
  · exact .inr ((m.performed op).onTape ht)

theorem coherent_new (program : Program) : (new program).Coherent :=
  ⟨settled_new program, .inl (unbuilt_new program)⟩

theorem Reachable.coherent {program : Program} {m : Machine} (h : Reachable program m) :
    m.Coherent := by
  induction h with
  | new => exact coherent_new program
  | perform _ op ih => exact ih.perform op

theorem Reachable.of_perform {program : Program} {m m' : Machine} {op : Operation}
    {answer : Except Error Answer} (h : Reachable program m) (hop : m.perform op = (answer, m')) :
    Reachable program m' := by
  have hm := h.perform op
  rwa [hop] at hm

def Built (ops : List Operation) (answers : List (Except Error Answer)) : Prop :=
  ∃ op ∈ ops.zip answers, op.1.builds ∧ ∃ a, op.2 = .ok a

theorem built_cons {op : Operation} {ops : List Operation} {answer : Except Error Answer}
    {answers : List (Except Error Answer)} :
    Built (op :: ops) (answer :: answers) ↔
      (op.builds ∧ ∃ a, answer = .ok a) ∨ Built ops answers := by
  simp [Built]

theorem performAll_cons (m : Machine) (op : Operation) (ops : List Operation) :
    m.performAll (op :: ops) =
      ((m.perform op).1 :: ((m.perform op).2.performAll ops).1,
        ((m.perform op).2.performAll ops).2) := rfl

theorem Coherent.performAll {m : Machine} (hm : m.Coherent) (ops : List Operation) :
    (m.performAll ops).2.Coherent := by
  induction ops generalizing m with
  | nil => exact hm
  | cons op ops ih => exact ih (hm.perform op)

theorem onTape_performAll {m : Machine} (hm : m.head < m.tape.size) (ops : List Operation) :
    (m.performAll ops).2.head < (m.performAll ops).2.tape.size := by
  induction ops generalizing m with
  | nil => exact hm
  | cons op ops ih => exact ih ((m.performed op).onTape hm)

theorem unbuilt_performAll {m : Machine} (hm : m.Unbuilt) (ops : List Operation) :
    ((m.performAll ops).2.Unbuilt ∧ ¬ Built ops (m.performAll ops).1) ∨
      ((m.performAll ops).2.head < (m.performAll ops).2.tape.size ∧
        Built ops (m.performAll ops).1) := by
  induction ops generalizing m with
  | nil => exact .inl ⟨hm, by simp [Built]⟩
  | cons op ops ih =>
    simp only [performAll_cons, built_cons]
    obtain ⟨hu, hb⟩ | ⟨ht, hb⟩ := (m.performed op).unbuilt hm
    · simpa only [hb, false_or] using ih hu
    · exact .inr ⟨onTape_performAll ht ops, .inl hb⟩

namespace Coherent

variable {m : Machine} (hm : m.Coherent)

include hm

theorem head_lt (h : m.phase = .started) : m.head < m.tape.size :=
  hm.onTape.resolve_left fun hu ↦ by simp [hu.phase] at h

theorem symbol?_isSome : m.symbol?.isSome ↔ m.phase = .started := by
  refine ⟨fun h ↦ ?_, fun h ↦ ?_⟩
  · cases hp : m.phase with
    | started => rfl
    | idle | halted => simp [symbol?, hp] at h
  · obtain ⟨symbol, hs⟩ := exists_read (hm.head_lt h)
    simp [symbol?_of_started h, hs]

theorem active_eq :
    m.active = m.symbol?.bind fun symbol ↦ (m.program.lookup m.state symbol).map Prod.snd :=
  (congrArg active hm.settled).symm.trans m.refresh_active

theorem active_of_ne_started (h : m.phase ≠ .started) : m.active = none := by
  rw [← hm.settled, refresh_eq_of_ne_started h]

theorem activeRule?_eq : m.activeRule? = m.symbol?.bind (m.program.lookup m.state) := by
  simp only [activeRule?, hm.active_eq]
  cases m.symbol? with
  | none => rfl
  | some symbol =>
    cases h : m.program.lookup m.state symbol with
    | none => simp [h]
    | some found =>
      have hrow := (Program.lookup_eq_some h).1
      simp [h, hrow, Slot.rule?]

theorem activeRow_eq : m.active = m.activeRule?.map Prod.snd := by
  rw [hm.active_eq, hm.activeRule?_eq, Option.map_bind]
  rfl

theorem slot?_of_active {row : Nat} (h : m.active = some row) :
    ∃ rule, m.program.slot? row = some (.filled rule) := by
  rw [hm.active_eq, Option.bind_eq_some_iff] at h
  obtain ⟨symbol, -, h⟩ := h
  obtain ⟨⟨rule, row'⟩, hl, rfl⟩ := Option.map_eq_some_iff.1 h
  exact ⟨rule, (Program.lookup_eq_some hl).1⟩

theorem started_of_activeRule? {found : Rule × Nat} (h : m.activeRule? = some found) :
    m.phase = .started := by
  rw [hm.activeRule?_eq, Option.bind_eq_some_iff] at h
  obtain ⟨symbol, hs, -⟩ := h
  exact hm.symbol?_isSome.1 (by simp [hs])

theorem activeRule?_eq_some_iff {rule : Rule} {row : Nat} :
    m.activeRule? = some (rule, row) ↔ m.phase = .started ∧ ∃ symbol,
      m.tape.read m.head = some symbol ∧ m.program.lookup m.state symbol = some (rule, row) := by
  constructor
  · intro h
    have hp := hm.started_of_activeRule? h
    rw [hm.activeRule?_eq, symbol?_of_started hp, Option.bind_eq_some_iff] at h
    exact ⟨hp, h⟩
  · rintro ⟨hp, h⟩
    rwa [hm.activeRule?_eq, symbol?_of_started hp, Option.bind_eq_some_iff]

theorem activeRule?_of_ne_started (h : m.phase ≠ .started) : m.activeRule? = none :=
  Option.eq_none_iff_forall_ne_some.2 fun _ hf ↦ h (hm.started_of_activeRule? hf)

theorem write_ok {found : Rule × Nat} (h : m.activeRule? = some found) (symbol : String) :
    m.tape.write m.head symbol = .ok ⟨m.tape.cells.set m.head symbol⟩ :=
  if_pos (hm.head_lt (hm.started_of_activeRule? h))

end Coherent

/-- Whatever is done to a new machine: there is a cell under the head unless nothing was built yet,
and the row kept for the next step is the right one while the machine runs and none otherwise. So a
machine that runs has a symbol under its head, the row it keeps holds a rule, the row that is shown
is the row of that rule, and a step can write. -/
theorem performAll_new (program : Program) (ops : List Operation) :
    let answers := ((new program).performAll ops).1
    let m := ((new program).performAll ops).2
    (¬ Built ops answers → m.tape = .empty ∧ m.head = 0 ∧ m.state = "" ∧ m.phase = .idle) ∧
    (Built ops answers → m.head < m.tape.size) ∧
    (m.phase = .started → ∃ symbol, m.tape.read m.head = some symbol ∧
      m.active = (m.program.lookup m.state symbol).map Prod.snd) ∧
    (m.phase ≠ .started → m.active = none) ∧
    (m.symbol?.isSome ↔ m.phase = .started) ∧
    (∀ row, m.active = some row → ∃ rule, m.program.slot? row = some (.filled rule)) ∧
    m.snapshot.activeRow = m.activeRule?.map Prod.snd ∧
    (∀ rule row, m.activeRule? = some (rule, row) →
      ∃ tape, m.tape.write m.head rule.output = .ok tape) := by
  intro answers m
  have hm : m.Coherent := (coherent_new program).performAll ops
  have hb := unbuilt_performAll (unbuilt_new program) ops
  refine ⟨fun h ↦ ?_, fun h ↦ ?_, fun h ↦ ?_,
    hm.active_of_ne_started, hm.symbol?_isSome, fun row ↦ hm.slot?_of_active, hm.activeRow_eq,
    fun rule row h ↦ ⟨_, hm.write_ok h rule.output⟩⟩
  · have hu := (hb.resolve_right fun hb ↦ h hb.2).1
    exact ⟨hu.tape, hu.head, hu.state, hu.phase⟩
  · exact (hb.resolve_left fun hb ↦ hb.2 h).1
  · obtain ⟨symbol, hs⟩ := exists_read (hm.head_lt h)
    exact ⟨symbol, hs, by rw [hm.active_eq, symbol?_of_started h, hs]; rfl⟩

end OneTape.Machine
