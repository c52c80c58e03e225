import SetScaler.Proofs.Schedule.Handles
import SetScaler.Proofs.Schedule.Orders

/-!
# Runs of a set do not overlap

Whatever is asked of the machine and however long runs take, runs of one set are never in progress at
the same time, and a task begins its first run only after the end of all earlier tasks of its set
(`runs_exclusive`).
-/

namespace SetScaler.Schedule

variable {σ ρ : Type}

theorem mem_middle {α : Type} {front back : List α} {item : α} (mem : item ∈ front ++ back)
    (middle : α) : item ∈ front ++ middle :: back := by
  rcases List.mem_append.mp mem with mem | mem
  · exact List.mem_append_left _ mem
  · exact List.mem_append_right _ (.tail _ mem)

theorem exists_mem_middle {α : Type} {front back : List α} {middle : α} {holds : α → Prop} :
    (∃ item ∈ front ++ middle :: back, holds item) ↔
      (∃ item ∈ front ++ back, holds item) ∨ holds middle := by
  constructor
  · rintro ⟨item, mem, held⟩
    rcases List.mem_append.mp mem with mem | mem
    · exact .inl ⟨item, List.mem_append_left _ mem, held⟩
    · rcases List.mem_cons.mp mem with rfl | mem
      · exact .inr held
      · exact .inl ⟨item, List.mem_append_right _ mem, held⟩
  · rintro (⟨item, mem, held⟩ | held)
    · exact ⟨item, mem_middle mem middle, held⟩
    · exact ⟨middle, List.mem_append_right _ List.mem_cons_self, held⟩

/-- Whether an entry says that a run of a set began or ended. -/
def Entry.marks (entry : Entry) (key : SetKey) : Bool :=
  entry.key == key && match entry.note with
    | .built _ => false
    | .started | .ended _ => true

/-- In a log, the runs of a set begin and end in turn. `current` is the task of the run that has not
ended. -/
inductive Alternates (key : SetKey) : List Entry → (current : Option Nat) → Prop where
  | empty : Alternates key [] none
  | other {log : List Entry} {entry : Entry} {current : Option Nat} :
      entry.marks key = false → Alternates key log current → Alternates key (log ++ [entry]) current
  | started {log : List Entry} {time generation : Nat} : Alternates key log none →
      Alternates key (log ++ [⟨time, key, generation, .started⟩]) (some generation)
  | ended {log : List Entry} {time generation : Nat} {outcome : RunEnd} :
      Alternates key log (some generation) →
      Alternates key (log ++ [⟨time, key, generation, .ended outcome⟩]) none

theorem Alternates.others {key : SetKey} {log entries : List Entry} {current : Option Nat}
    (alternates : Alternates key log current) (others : ∀ entry ∈ entries, entry.marks key = false) :
    Alternates key (log ++ entries) current := by
  induction entries generalizing log with
  | nil => simpa using alternates
  | cons entry rest ih =>
      have first : Alternates key (log ++ [entry]) current :=
        .other (others entry List.mem_cons_self) alternates
      simpa using ih first fun other mem => others other (.tail _ mem)

namespace Task.Becomes

variable {time : Nat} {finished : Nat → Bool} {task after : Task ρ} {entries log : List Entry}

theorem own (becomes : task.Becomes time finished after entries) :
    ∀ entry ∈ entries, entry.key = task.key ∧ entry.generation = task.generation ∧
      (entry.note = .started → 0 < after.runs) := by
  cases becomes with
  | unchanged | freed | resumed | left => simp
  | returned => simp [Task.entry]
  | began => simp [Task.entry]
  | passed => simp [Task.entry]

/-- A task that is not past its wait, or has finished, does nothing that is noted. -/
theorem idle (becomes : task.Becomes time finished after entries) (inactive : task.isActive = false) :
    entries = [] ∧ task.isRunning = false ∧ after.isRunning = false := by
  cases becomes with
  | unchanged =>
      have idle : task.isRunning = false := by
        cases phase : task.phase <;> simp_all [isActive, isRunning]
      exact ⟨rfl, idle, idle⟩
  | freed phase => exact ⟨rfl, by simp [isRunning, phase], task.rest_isRunning time⟩
  | resumed phase | returned phase | left phase | began phase | passed phase =>
      simp [isActive, phase] at inactive

theorem alternates (becomes : task.Becomes time finished after entries)
    (before : Alternates task.key log (if task.isRunning then some task.generation else none)) :
    Alternates task.key (log ++ entries)
      (if after.isRunning then some task.generation else none) := by
  cases becomes with
  | unchanged => simpa using before
  | freed phase =>
      have waits : task.isRunning = false := by simp [isRunning, phase]
      simpa [waits, task.rest_isRunning time] using before
  | resumed phase =>
      have runs : task.isRunning = true := by simp [isRunning, phase]
      have goes : ({ task with phase := .running ‹_› } : Task ρ).isRunning = true := rfl
      simpa [runs, goes] using before
  | returned phase =>
      have runs : task.isRunning = true := by simp [isRunning, phase]
      rw [runs, if_pos rfl] at before
      rw [task.rest_isRunning time]
      exact .ended before
  | left phase =>
      have sleeps : task.isRunning = false := by simp [isRunning, phase]
      rw [sleeps] at before
      rw [List.append_nil]
      exact before
  | began phase =>
      have sleeps : task.isRunning = false := by simp [isRunning, phase]
      rw [sleeps] at before
      exact .started before
  | @passed due next outcome phase =>
      have sleeps : task.isRunning = false := by simp [isRunning, phase]
      rw [sleeps] at before
      have started : Alternates task.key (log ++ [task.entry time .started]) (some task.generation) :=
        .started before
      have ended : Alternates task.key
          (log ++ [task.entry time .started] ++ [task.entry time (.ended outcome)]) none :=
        .ended started
      rw [List.append_assoc] at ended
      exact ended

end Task.Becomes

theorem Task.isActive_of_isRunning {task : Task ρ} (runs : task.isRunning = true) :
    task.isActive = true := by
  cases phase : task.phase <;> simp_all [isActive, isRunning]

/-- No two tasks of one set may be in a run or begin one. -/
theorem Ordered.alone {tasks : List (Task ρ)} (ordered : Ordered tasks) {task other : Task ρ}
    (mem : task ∈ tasks) (present : other ∈ tasks) (same : task.key = other.key)
    (active : task.isActive = true) (busy : other.isActive = true) : task = other := by
  have past {task : Task ρ} (active : task.isActive = true) :
      task.predecessor? = none ∧ task.isFinished = false := by
    cases phase : task.phase <;> simp_all [Task.isActive, Task.predecessor?, Task.isFinished]
  rcases Nat.lt_trichotomy task.generation other.generation with lower | equal | higher
  · have ended := ordered.begun other present (past busy).1 task mem same lower
    rw [(past active).2] at ended
    cases ended
  · exact ordered.eq_of_generation mem present equal
  · have ended := ordered.begun task mem (past active).1 other present same.symm higher
    rw [(past busy).2] at ended
    cases ended

theorem Ordered.apart {front back : List (Task ρ)} {task : Task ρ}
    (ordered : Ordered (front ++ task :: back)) {other : Task ρ} (mem : other ∈ front ++ back) :
    other.generation ≠ task.generation := by
  obtain ⟨-, later, earlier⟩ := List.pairwise_append.mp ordered.ascending
  rcases List.mem_append.mp mem with mem | mem
  · exact Nat.ne_of_lt (earlier other mem task List.mem_cons_self)
  · exact Nat.ne_of_gt (List.rel_of_pairwise_cons later mem)

/-- Besides an active task no other one of its set is in a run. -/
theorem Ordered.others_rest {front back : List (Task ρ)} {task : Task ρ}
    (ordered : Ordered (front ++ task :: back)) (active : task.isActive = true) {other : Task ρ}
    (mem : other ∈ front ++ back) (same : other.key = task.key) : other.isRunning = false := by
  cases runs : other.isRunning with
  | false => rfl
  | true =>
      have busy := Task.isActive_of_isRunning runs
      have one := ordered.alone (mem_middle mem task) (by simp) same busy active
      exact absurd (congrArg Task.generation one) (ordered.apart mem)

/-- What a log has to do with the tasks that it is about. -/
structure Noted (tasks : List (Task ρ)) (log : List Entry) : Prop where
  known : ∀ entry ∈ log, ∃ task ∈ tasks, task.key = entry.key ∧ task.generation = entry.generation ∧
    (entry.note = .started → 0 < task.runs)
  alternates : ∀ key, ∃ current, Alternates key log current ∧ ∀ generation,
    current = some generation ↔
      ∃ task ∈ tasks, task.key = key ∧ task.isRunning = true ∧ task.generation = generation

namespace Noted

variable {tasks : List (Task ρ)} {log : List Entry}

theorem becomes {front back : List (Task ρ)} {task after : Task ρ} {entries : List Entry}
    {time : Nat} {finished : Nat → Bool} (ordered : Ordered (front ++ task :: back))
    (noted : Noted (front ++ task :: back) log)
    (becomes : task.Becomes time finished after entries) :
    Noted (front ++ after :: back) (log ++ entries) := by
  have follows := becomes.follows
  refine ⟨fun entry mem => ?_, fun key => ?_⟩
  · rcases List.mem_append.mp mem with mem | mem
    · have known := noted.known entry mem
      rw [exists_mem_middle] at known ⊢
      rcases known with elsewhere | ⟨named, numbered, begun⟩
      · exact .inl elsewhere
      · exact .inr ⟨follows.key.trans named, follows.generation.trans numbered,
          fun started => Nat.lt_of_lt_of_le (begun started) follows.runs⟩
    · obtain ⟨named, numbered, begun⟩ := becomes.own entry mem
      exact ⟨after, by simp, follows.key.trans named.symm, follows.generation.trans numbered.symm, begun⟩
  · obtain ⟨current, alternates, runs⟩ := noted.alternates key
    simp only [exists_mem_middle] at runs ⊢
    by_cases own : task.key = key
    · subst own
      -- an active task is alone in its set, so that the present run of the log is its own or nobody's
      by_cases active : task.isActive = true
      · have others (generation : Nat) : ¬∃ other ∈ front ++ back, other.key = task.key ∧
            other.isRunning = true ∧ other.generation = generation := by
          rintro ⟨other, mem, same, running, -⟩
          rw [ordered.others_rest active mem same] at running
          cases running
        have now : current = if task.isRunning then some task.generation else none := by
          refine Option.ext fun generation => ?_
          rw [runs generation, or_iff_right (others generation)]
          cases task.isRunning <;> simp
        refine ⟨_, becomes.alternates (now ▸ alternates), fun generation => ?_⟩
        rw [follows.key, follows.generation, or_iff_right (others generation)]
        cases after.isRunning <;> simp
      · obtain ⟨rfl, rested, rests⟩ := becomes.idle (by simpa using active)
        refine ⟨current, by simpa using alternates, fun generation => ?_⟩
        rw [runs generation, rested, rests]
        simp
    · refine ⟨current, alternates.others fun entry mem => ?_, fun generation => ?_⟩
      · simp [Entry.marks, (becomes.own entry mem).1, own]
      · rw [runs generation, follows.key]
        simp [own]

theorem launch {fresh : Task ρ} (noted : Noted tasks log) (time periodMs : Nat)
    (rests : fresh.isRunning = false) :
    Noted (tasks ++ [fresh]) (log ++ [fresh.entry time (.built periodMs)]) := by
  refine ⟨fun entry mem => ?_, fun key => ?_⟩
  · rw [exists_mem_middle, List.append_nil]
    rcases List.mem_append.mp mem with mem | mem
    · exact .inl (noted.known entry mem)
    · rw [List.mem_singleton.mp mem]
      exact .inr ⟨rfl, rfl, fun started => by cases started⟩
  · obtain ⟨current, alternates, runs⟩ := noted.alternates key
    refine ⟨current, .other (by simp [Entry.marks, Task.entry]) alternates, fun generation => ?_⟩
    rw [exists_mem_middle, List.append_nil, runs generation, rests]
    simp

/-- What is noted of tasks does not depend on whether they are cancelled. -/
theorem map {change : Task ρ → Task ρ} (noted : Noted tasks log)
    (kept : ∀ task, (change task).key = task.key ∧ (change task).generation = task.generation ∧
      (change task).runs = task.runs ∧ (change task).isRunning = task.isRunning) :
    Noted (tasks.map change) log := by
  refine ⟨fun entry mem => ?_, fun key => ?_⟩
  · obtain ⟨task, present, named, numbered, begun⟩ := noted.known entry mem
    obtain ⟨keys, generations, runs, -⟩ := kept task
    exact ⟨change task, List.mem_map_of_mem present, keys.trans named, generations.trans numbered,
      fun started => runs ▸ begun started⟩
  · obtain ⟨current, alternates, runs⟩ := noted.alternates key
    refine ⟨current, alternates, fun generation => (runs generation).trans ?_⟩
    constructor
    · rintro ⟨task, mem, named, running, numbered⟩
      obtain ⟨keys, generations, -, runnings⟩ := kept task
      exact ⟨change task, List.mem_map_of_mem mem, keys.trans named, runnings.trans running,
        generations.trans numbered⟩
    · rintro ⟨after, mem, named, running, numbered⟩
      obtain ⟨task, present, rfl⟩ := List.mem_map.mp mem
      obtain ⟨keys, generations, -, runnings⟩ := kept task
      exact ⟨task, present, keys.symm.trans named, runnings.symm.trans running,
        generations.symm.trans numbered⟩

end Noted

/-- A registry and the tasks of a machine fit together. -/
structure Sound (registry : Registry) (machine : Machine σ ρ) : Prop where
  ordered : Ordered machine.tasks
  below : ∀ task ∈ machine.tasks, task.generation < registry.next
  /-- Nothing is scheduled after a shutdown, and so nothing needs to be known. -/
  knows : registry.closed = false → registry.Knows machine.tasks
  noted : Noted machine.tasks machine.log

namespace Sound

variable {registry : Registry} {machine : Machine σ ρ}

theorem cancel (sound : Sound registry machine) (generation : Nat) :
    Sound registry (machine.obey (.cancel generation)) := by
  have follows : ∀ after ∈ machine.tasks.map (Task.cancelFor generation), ∃ task ∈ machine.tasks,
      task.Follows (Machine.hasFinished machine.tasks) after :=
    List.forall_mem_map.mpr fun task mem => ⟨task, mem, task.cancelFor_follows generation _⟩
  have scheduled := Task.map_cancelFor_scheduled generation machine.tasks
  have below : ∀ after ∈ machine.tasks.map (Task.cancelFor generation),
      after.generation < registry.next := by
    refine List.forall_mem_map.mpr fun task mem => ?_
    rw [Task.generation, task.cancelFor_scheduled]
    exact sound.below task mem
  have noted : Noted (machine.tasks.map (Task.cancelFor generation)) machine.log :=
    sound.noted.map fun task => by simp [Task.key, Task.generation, Task.isRunning]
  exact ⟨sound.ordered.follow scheduled follows, below,
    fun opened => (sound.knows opened).follow follows, noted⟩

theorem retire (sound : Sound registry machine) (key : SetKey) :
    Sound (registry.retire key).1 ((registry.retire key).2.foldl Machine.obey machine) := by
  obtain ⟨next, closed⟩ := registry.retire_kept key
  have known : Sound (registry.retire key).1 machine :=
    ⟨sound.ordered, next ▸ sound.below, fun opened => (sound.knows (closed ▸ opened)).retire key,
      sound.noted⟩
  rcases registry.retire_orders key with none | ⟨generation, one⟩
  · rw [none]
    exact known
  · rw [one]
    exact known.cancel generation

theorem launch (sound : Sound registry machine) (opened : registry.closed = false) {key : SetKey}
    (unlive : ∀ scheduled ∈ registry.live, scheduled.key ≠ key) (spec : AutoscalerSpec) :
    Sound (registry.launch key spec).1 ((registry.launch key spec).2.foldl Machine.obey machine) := by
  let fresh : Task ρ :=
    .fresh ⟨key, spec, registry.next⟩ (registry.retiring.lookup key) (machine.time + spec.periodMs)
  have waits : fresh.predecessor? = registry.retiring.lookup key := Task.fresh_predecessor ..
  have rests : fresh.isRunning = false := Task.fresh_isRunning ..
  have new : registry.Fresh key fresh := ⟨unlive, rfl, rfl, rfl, waits⟩
  have knows := sound.knows opened
  refine ⟨sound.ordered.launch knows sound.below new, ?_, fun _ => knows.launch spec sound.below new,
    sound.noted.launch machine.time spec.periodMs rests⟩
  intro task mem
  rcases List.mem_append.mp mem with mem | mem
  · exact Nat.lt_succ_of_lt (sound.below task mem)
  · rw [List.mem_singleton.mp mem]
    exact Nat.lt_succ_self _

theorem pass (sound : Sound machine.registry machine) {after : Machine σ ρ}
    (passes : machine.Passes after) : Sound after.registry after := by
  have follows := passes.follows
  have scheduled := passes.map_eq Task.scheduled fun becomes => becomes.follows.scheduled
  have below : ∀ later ∈ after.tasks, later.generation < machine.registry.next := by
    intro later mem
    obtain ⟨task, listed, follow⟩ := follows later mem
    exact follow.generation ▸ sound.below task listed
  rw [passes.registry_eq]
  refine ⟨sound.ordered.follow scheduled follows, below,
    fun opened => (sound.knows opened).follow follows, ?_⟩
  cases passes with
  | unmoved | elapsed => exact sound.noted
  | @went index task later entries heard state present true_news becomes =>
      obtain ⟨inside, rfl⟩ := List.getElem?_eq_some_iff.mp present
      have before : machine.tasks =
          machine.tasks.take index ++ machine.tasks[index] :: machine.tasks.drop (index + 1) := by
        rw [List.getElem_cons_drop, List.take_append_drop]
      have now : machine.tasks.set index later =
          machine.tasks.take index ++ later :: machine.tasks.drop (index + 1) :=
        List.set_eq_take_append_cons_drop.trans (if_pos inside)
      have ordered := sound.ordered
      have noted := sound.noted
      rw [before] at ordered noted
      have both := noted.becomes ordered becomes
      rw [← now] at both
      exact both

theorem upheld : Upheld (Sound (σ := σ) (ρ := ρ)) where
  adopt _ sound := ⟨sound.ordered, sound.below, sound.knows, sound.noted⟩
  prune sound := ⟨sound.ordered, sound.below,
    fun opened => (sound.knows opened).prune sound.ordered, sound.noted⟩
  retire key sound := sound.retire key
  launch spec opened unlive sound := sound.launch opened unlive spec
  shut sound := ⟨sound.ordered, sound.below, fun opened => (by cases opened), sound.noted⟩
  drain closed sound := ⟨sound.ordered, sound.below, fun opened => (by
    cases closed.symm.trans opened), sound.noted⟩
  pass passes sound := sound.pass passes

theorem initial (state : σ) : Sound {} ({ state } : Machine σ ρ) := by
  refine ⟨⟨.nil, by simp, by simp⟩, by simp, fun _ => ⟨by simp, by simp, by simp⟩, by simp, ?_⟩
  exact fun key => ⟨none, .empty, by simp⟩

end Sound

theorem Machine.sound_steps (work : Workload σ ρ) {machine : Machine σ ρ} (steps : List Step)
    (sound : Sound machine.registry machine) :
    Sound (steps.foldl (step work) machine).registry (steps.foldl (step work) machine) :=
  Sound.upheld.steps work steps sound

/-- Runs of one set are one after the other. -/
structure Exclusive (machine : Machine σ ρ) : Prop where
  /-- At most one run of a set is in progress. -/
  alone : ∀ key, (machine.tasks.filter fun task => task.key == key && task.isRunning).length ≤ 1
  /-- A task that has begun a run did so after the end of all earlier tasks of its set. -/
  returned : ∀ task ∈ machine.tasks, 0 < task.runs → ∀ other ∈ machine.tasks, other.key = task.key →
    other.generation < task.generation → other.isFinished = true
  /-- In the log, too, the runs of a set begin and end in turn. -/
  noted : Noted machine.tasks machine.log

theorem Sound.exclusive {registry : Registry} {machine : Machine σ ρ}
    (sound : Sound registry machine) : Exclusive machine where
  alone key := by
    have ascending := sound.ordered.ascending.filter fun task => task.key == key && task.isRunning
    have chosen : ∀ task ∈ machine.tasks.filter fun task => task.key == key && task.isRunning,
        task ∈ machine.tasks ∧ task.key = key ∧ task.isActive = true := by
      intro task mem
      obtain ⟨present, picked⟩ := List.mem_filter.mp mem
      rw [Bool.and_eq_true, beq_iff_eq] at picked
      exact ⟨present, picked.1, Task.isActive_of_isRunning picked.2⟩
    cases running : machine.tasks.filter fun task => task.key == key && task.isRunning with
    | nil => simp
    | cons first others =>
        cases others with
        | nil => simp
        | cons second rest =>
            rw [running] at ascending chosen
            obtain ⟨mem, own, active⟩ := chosen first (by simp)
            obtain ⟨present, same, busy⟩ := chosen second (by simp)
            have one := sound.ordered.alone mem present (own.trans same.symm) active busy
            have lower := List.rel_of_pairwise_cons ascending (List.mem_cons_self)
            rw [one] at lower
            exact absurd lower (Nat.lt_irrefl _)
  returned task mem begun := by
    cases waits : task.predecessor? with
    | none => exact sound.ordered.begun task mem waits
    | some predecessor =>
        have unbegun := (sound.ordered.waiting task mem predecessor waits).1
        omega
  noted := sound.noted

/-- Whatever steps there are, and in whatever order, runs of one set do not overlap; and nothing else
than such steps happens, whatever is asked of the machine. -/
theorem runs_exclusive (work : Workload σ ρ) (state : σ) :
    (∀ steps : List Step, Exclusive (steps.foldl (Machine.step work) { state })) ∧
      ∀ calls : List Call, Machine.Reaches work { state } (calls.foldl (Machine.call work) { state }) :=
  ⟨fun steps => (Machine.sound_steps work steps (.initial state)).exclusive,
    fun calls => Machine.reaches_calls work calls { state }⟩

end SetScaler.Schedule
