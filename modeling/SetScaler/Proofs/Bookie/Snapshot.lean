import SetScaler.Proofs.Run.Answering
import SetScaler.Proofs.Survey

/-!
# A survey of bookies is all or nothing

The bookies of a set are queried side by side, two queries after each other for each of them. Either all
have answered before the cancellation fires, and then the survey is the same however long each query took,
or there is no survey (`bookieNodes_snapshot`).
-/

namespace SetScaler.Survey

variable {ns : String} {bookieId : String → String} {answer : BookieCommand → Output}
  {delay : BookieCommand → Nat} {cancellation : Cancellation} {time : Nat}

/-- Both queries of a bookie have answered with what can be read. -/
def Answered (ns : String) (answer : BookieCommand → Output) (pod : String) (state : BookieState)
    (space : BookieInfo) : Prop :=
  ∃ first second, answer ⟨ns, pod, .state⟩ = .ok first ∧ answer ⟨ns, pod, .info⟩ = .ok second ∧
    BookieState.ofOutput? first = some state ∧ BookieInfo.ofOutput? second = some space

/-- A bookie as the answers of its pod show it. -/
structure Pictured (ns : String) (bookieId : String → String) (answer : BookieCommand → Output)
    (node : BookieNode) : Prop where
  identity : node.bookieId = bookieId node.pod
  writable : node.writable = true ↔ ∃ state space, Answered ns answer node.pod state space ∧
    state.running = true ∧ state.readOnly = false ∧ state.shuttingDown = false
  measured : ∀ state space, Answered ns answer node.pod state space → ∃ disk, node.disks = [disk] ∧
    disk.maxBytes = space.totalSpace ∧ disk.usedBytes.toNat = space.totalSpace.toNat - space.freeSpace.toNat
  unmeasured : (∀ state space, ¬Answered ns answer node.pod state space) → node.disks = []

/-- The cancellation fires before both queries of a pod have answered. An answer that is a cancellation
counts as well. -/
def Interrupted (ns : String) (delay : BookieCommand → Nat) (answer : BookieCommand → Output)
    (cancellation : Cancellation) (time : Nat) (pod : String) : Prop :=
  cancellation.firedBy (time + delay ⟨ns, pod, .state⟩ + delay ⟨ns, pod, .info⟩) = true ∨
    answer ⟨ns, pod, .state⟩ = .error .cancelled ∨ answer ⟨ns, pod, .info⟩ = .error .cancelled

/-- What a query reads off its output. -/
def readWith {α : Type} (parse : String → Option α) (what : String) : Output → Except Failure α
  | .error failure => .error failure
  | .ok text =>
    match parse text with
    | some found => .ok found
    | none => .error (.unparsable what "malformed")

theorem readState_eq : Admin.readState = readWith BookieState.ofOutput? "bookie state" := by
  funext output
  cases output with
  | error failure => rfl
  | ok text => cases parsed : BookieState.ofOutput? text <;> simp only [Admin.readState, readWith, parsed]

theorem readInfo_eq : Admin.readInfo = readWith BookieInfo.ofOutput? "bookie info" := by
  funext output
  cases output with
  | error failure => rfl
  | ok text => cases parsed : BookieInfo.ofOutput? text <;> simp only [Admin.readInfo, readWith, parsed]

section Reading

variable {α : Type} {parse : String → Option α} {what : String} {output : Output}

theorem readWith_cancelled : isCancelled (readWith parse what output) = true ↔ output = .error .cancelled := by
  cases output with
  | error failure => cases failure <;> simp [readWith, isCancelled]
  | ok text => cases read : parse text <;> simp [readWith, isCancelled, read]

theorem readWith_ok {found : α} :
    readWith parse what output = .ok found ↔ ∃ text, output = .ok text ∧ parse text = some found := by
  cases output with
  | error failure => simp [readWith]
  | ok text => cases read : parse text <;> simp [readWith, read]

end Reading

theorem answered_iff {pod : String} {state : BookieState} {space : BookieInfo} :
    Answered ns answer pod state space ↔ Admin.readState (answer ⟨ns, pod, .state⟩) = .ok state ∧
      Admin.readInfo (answer ⟨ns, pod, .info⟩) = .ok space := by
  rw [readState_eq, readInfo_eq, readWith_ok, readWith_ok]
  constructor
  · rintro ⟨first, second, stated, measured, state, space⟩
    exact ⟨⟨first, stated, state⟩, second, measured, space⟩
  · rintro ⟨⟨first, stated, state⟩, second, measured, space⟩
    exact ⟨first, second, stated, measured, state, space⟩

/-- The bookie that the answers of a pod come to, neither of them cancelled. -/
def pictureOf (ns : String) (bookieId : String → String) (answer : BookieCommand → Output) (pod : String) :
    BookieNode :=
  match Admin.readState (answer ⟨ns, pod, .state⟩), Admin.readInfo (answer ⟨ns, pod, .info⟩) with
  | .ok state, .ok info => ⟨pod, bookieId pod, state.writable, [info.disk]⟩
  | _, _ => ⟨pod, bookieId pod, false, []⟩

theorem used_toNat (space : BookieInfo) :
    space.disk.usedBytes.toNat = space.totalSpace.toNat - space.freeSpace.toNat := by
  unfold BookieInfo.disk
  dsimp only
  split
  · rename_i within
    exact UInt64.toNat_sub_of_le _ _ within
  · rename_i beyond
    have more := UInt64.lt_iff_toNat_lt.mp (UInt64.not_le.mp beyond)
    simp
    omega

theorem Answered.unique {pod : String} {state state' : BookieState} {space space' : BookieInfo}
    (answered : Answered ns answer pod state space) (again : Answered ns answer pod state' space') :
    state' = state ∧ space' = space := by
  obtain ⟨stated, measured⟩ := answered_iff.mp answered
  obtain ⟨stated', measured'⟩ := answered_iff.mp again
  exact ⟨Except.ok.inj (stated'.symm.trans stated), Except.ok.inj (measured'.symm.trans measured)⟩

theorem pictureOf_answered {pod : String} {state : BookieState} {space : BookieInfo}
    (answered : Answered ns answer pod state space) :
    pictureOf ns bookieId answer pod = ⟨pod, bookieId pod, state.writable, [space.disk]⟩ := by
  obtain ⟨stated, measured⟩ := answered_iff.mp answered
  rw [pictureOf, stated, measured]

theorem pictureOf_unanswered {pod : String}
    (unanswered : ∀ state space, ¬Answered ns answer pod state space) :
    pictureOf ns bookieId answer pod = ⟨pod, bookieId pod, false, []⟩ := by
  unfold pictureOf
  split
  · rename_i state space stated measured
    exact absurd (answered_iff.mpr ⟨stated, measured⟩) (unanswered state space)
  · rfl

theorem pictureOf_pod (ns : String) (bookieId : String → String) (answer : BookieCommand → Output)
    (pod : String) : (pictureOf ns bookieId answer pod).pod = pod := by
  unfold pictureOf
  split <;> rfl

theorem pictureOf_pictured (pod : String) :
    Pictured ns bookieId answer (pictureOf ns bookieId answer pod) := by
  by_cases found : ∃ state space, Answered ns answer pod state space
  · obtain ⟨state, space, answered⟩ := found
    rw [pictureOf_answered answered]
    refine ⟨rfl, ?_, ?_, fun unanswered => absurd answered (unanswered state space)⟩
    · constructor
      · intro writable
        exact ⟨state, space, answered, by simpa [BookieState.writable, and_assoc] using writable⟩
      · rintro ⟨other, _, again, running, open_, staying⟩
        obtain ⟨rfl, -⟩ := answered.unique again
        simp [BookieState.writable, running, open_, staying]
    · intro other measured again
      obtain ⟨-, rfl⟩ := answered.unique again
      exact ⟨_, rfl, rfl, used_toNat _⟩
  · have unanswered : ∀ state space, ¬Answered ns answer pod state space := fun state space answered =>
      found ⟨state, space, answered⟩
    rw [pictureOf_unanswered unanswered]
    refine ⟨rfl, ?_, fun state space answered => absurd answered (unanswered state space), fun _ => rfl⟩
    simp [unanswered]

theorem bookieNode?_eq_picture {pod : String} (state : answer ⟨ns, pod, .state⟩ ≠ .error .cancelled)
    (info : answer ⟨ns, pod, .info⟩ ≠ .error .cancelled) :
    bookieNode? (bookieId pod) pod ((queriesOf ns pod).map answer) =
      some (pictureOf ns bookieId answer pod) := by
  have stated : isCancelled (Admin.readState (answer ⟨ns, pod, .state⟩)) = false := by
    rw [readState_eq, Bool.eq_false_iff, ne_eq, readWith_cancelled]
    exact state
  have measured : isCancelled (Admin.readInfo (answer ⟨ns, pod, .info⟩)) = false := by
    rw [readInfo_eq, Bool.eq_false_iff, ne_eq, readWith_cancelled]
    exact info
  simp only [bookieNode?, pictureOf, queriesOf, List.map_cons, List.map_nil, List.headD_cons,
    List.drop_succ_cons, List.drop_zero, stated, measured, Bool.or_false, Bool.false_eq_true, if_false]
  cases Admin.readState (answer ⟨ns, pod, .state⟩) with
  | error => rfl
  | ok => cases Admin.readInfo (answer ⟨ns, pod, .info⟩) <;> rfl

theorem bookieNode?_eq_none {outputs : List Output} (marked : .error .cancelled ∈ outputs)
    (two : outputs.length = 2) (bookieId pod : String) : bookieNode? bookieId pod outputs = none := by
  obtain ⟨state, info, rfl⟩ : ∃ state info, outputs = [state, info] := by
    match outputs, two with
    | [state, info], _ => exact ⟨state, info, rfl⟩
  have either : (isCancelled (Admin.readState state) || isCancelled (Admin.readInfo info)) = true := by
    rw [Bool.or_eq_true, readState_eq, readInfo_eq, readWith_cancelled, readWith_cancelled]
    simpa [eq_comm] using marked
  simp [bookieNode?, either]

theorem mapM_eq_none {α β : Type} {f : α → Option β} {items : List α} {item : α} (listed : item ∈ items)
    (none : f item = .none) : items.mapM f = .none := by
  induction items with
  | nil => cases listed
  | cons first rest ih =>
      rcases List.mem_cons.mp listed with rfl | later
      · simp [none]
      · simp [ih later]

theorem mapM_zip_map {α β γ : Type} {f : α × β → Option γ} {items : List α} {g : α → β} {h : α → γ}
    (each : ∀ item ∈ items, f (item, g item) = some (h item)) :
    (items.zip (items.map g)).mapM f = some (items.map h) := by
  induction items with
  | nil => rfl
  | cons item rest ih =>
      obtain ⟨first, later⟩ := List.forall_mem_cons.mp each
      simp [first, ih later]

theorem bookieNodesOf_marked {names : List String} {outputs : List (List Output)} {marked : List Output}
    (many : outputs.length = names.length) (listed : marked ∈ outputs)
    (unread : ∀ pod, bookieNode? (bookieId pod) pod marked = none) :
    bookieNodesOf bookieId names outputs = .error .cancelled := by
  have paired : marked ∈ (names.zip outputs).map Prod.snd := by
    rwa [List.map_snd_zip (Nat.le_of_eq many)]
  obtain ⟨⟨pod, row⟩, among, rfl⟩ := List.mem_map.mp paired
  rw [bookieNodesOf, mapM_eq_none among (unread pod)]

theorem pictures_pairwise {names : List String}
    (sorted : names.Pairwise fun a b => MemberName.le a b = true) :
    (names.map (pictureOf ns bookieId answer)).Pairwise fun a b => MemberName.le a.pod b.pod = true := by
  rw [List.pairwise_map]
  simpa only [pictureOf_pod] using sorted

theorem bookieNodesOf_answered {names : List String}
    (sorted : names.Pairwise fun a b => MemberName.le a b = true)
    (state : ∀ pod ∈ names, answer ⟨ns, pod, .state⟩ ≠ .error .cancelled)
    (info : ∀ pod ∈ names, answer ⟨ns, pod, .info⟩ ≠ .error .cancelled) :
    bookieNodesOf bookieId names ((names.map (queriesOf ns)).map fun row => row.map answer) =
      .ok (names.map (pictureOf ns bookieId answer)) := by
  refine bookieNodesOf_read sorted (by simp) ?_
  rw [List.map_map]
  exact mapM_zip_map fun pod among => bookieNode?_eq_picture (state pod among) (info pod among)

theorem span_queriesOf (delay : BookieCommand → Nat) (ns pod : String) :
    span delay (queriesOf ns pod) = delay ⟨ns, pod, .state⟩ + delay ⟨ns, pod, .info⟩ := rfl

section Collection

variable {σ : Type} {backend : Backend σ} {key : SetKey} {pods : List Pod} {state listed : σ}

variable (answering : backend.Answers delay answer)
  (replied : backend.reply (.pods key.ns key.selector) time state = (.ok pods, listed))
include answering replied

theorem bookieNodes_interrupted
    (interrupted : ∃ pod ∈ namesOf pods, Interrupted key.ns delay answer cancellation time pod) :
    ((bookieNodes key bookieId).run backend cancellation time state).result = .error .cancelled := by
  have marked : ∃ outputs ∈ queriedFrom backend cancellation time ((namesOf pods).map (queriesOf key.ns))
      listed, .error .cancelled ∈ outputs ∧ outputs.length = 2 := by
    by_cases unfired : ∀ row ∈ (namesOf pods).map (queriesOf key.ns),
        cancellation.firedBy (time + span delay row) = false
    · obtain ⟨pod, among, fired | cancelled⟩ := interrupted
      · have late := unfired (queriesOf key.ns pod) (List.mem_map_of_mem among)
        rw [span_queriesOf, ← Nat.add_assoc, fired] at late
        cases late
      · rw [queried_answered answering listed unfired]
        refine ⟨_, List.mem_map_of_mem (List.mem_map_of_mem among), ?_, rfl⟩
        simpa [queriesOf, eq_comm] using cancelled
    · simp only [Classical.not_forall, Bool.not_eq_false] at unfired
      obtain ⟨row, queried, fired⟩ := unfired
      obtain ⟨pod, among, rfl⟩ := List.mem_map.mp queried
      obtain ⟨outputs, found, cut, row, queried, size⟩ := queried_interrupted answering listed queried
        (by simp [queriesOf]) fired
      obtain ⟨pod, -, rfl⟩ := List.mem_map.mp queried
      exact ⟨outputs, found, cut, size⟩
  obtain ⟨outputs, found, cut, two⟩ := marked
  refine (congrArg Ended.result (bookieNodes_run replied)).trans ?_
  exact bookieNodesOf_marked (queried_length _ _) found fun pod => bookieNode?_eq_none cut two _ pod

theorem bookieNodes_run_answered
    (uninterrupted : ∀ pod ∈ namesOf pods, ¬Interrupted key.ns delay answer cancellation time pod) :
    (bookieNodes key bookieId).run backend cancellation time state =
      let ended := queried backend cancellation key.ns (namesOf pods) time listed
      ⟨.ok ((namesOf pods).map (pictureOf key.ns bookieId answer)),
        .called time (.pods key.ns key.selector) (.ok pods) :: ended.trace, ended.time, ended.state⟩ := by
  have unfired : ∀ row ∈ (namesOf pods).map (queriesOf key.ns),
      cancellation.firedBy (time + span delay row) = false := by
    intro row queried
    obtain ⟨pod, among, rfl⟩ := List.mem_map.mp queried
    rw [span_queriesOf, ← Nat.add_assoc]
    exact Bool.eq_false_iff.mpr fun fired => uninterrupted pod among (.inl fired)
  have outputs : Row.outputsOf (queried backend cancellation key.ns (namesOf pods) time listed).result = _ :=
    queried_answered answering listed unfired
  refine (bookieNodes_run replied).trans ?_
  dsimp only
  rw [outputs, bookieNodesOf_answered (namesOf_pairwise pods)]
  · intro pod among cancelled
    exact uninterrupted pod among (.inr (.inl cancelled))
  · intro pod among cancelled
    exact uninterrupted pod among (.inr (.inr cancelled))

theorem bookieNodes_answered
    (uninterrupted : ∀ pod ∈ namesOf pods, ¬Interrupted key.ns delay answer cancellation time pod) :
    ((bookieNodes key bookieId).run backend cancellation time state).result =
      .ok ((namesOf pods).map (pictureOf key.ns bookieId answer)) :=
  congrArg Ended.result (bookieNodes_run_answered answering replied uninterrupted)

end Collection

theorem bookieNodes_snapshot (key : SetKey) (bookieId : String → String) (pods : List Pod)
    (answer : BookieCommand → Output) :
    ∃ nodes : List BookieNode, (nodes.map BookieNode.pod).Perm (pods.filterMap Pod.name) ∧
      (nodes.Pairwise fun a b => MemberName.le a.pod b.pod = true) ∧
      (∀ node ∈ nodes, Pictured key.ns bookieId answer node) ∧
      ∀ {σ : Type} (backend : Backend σ) (delay : BookieCommand → Nat) (cancellation : Cancellation)
        (time : Nat) (state listed : σ), backend.Answers delay answer →
        backend.reply (.pods key.ns key.selector) time state = (.ok pods, listed) →
        let result := ((bookieNodes key bookieId).run backend cancellation time state).result
        let interrupted := Interrupted key.ns delay answer cancellation time
        ((∃ pod ∈ pods.filterMap Pod.name, interrupted pod) → result = .error .cancelled) ∧
          ((∀ pod ∈ pods.filterMap Pod.name, ¬interrupted pod) → result = .ok nodes) := by
  have named (pod : String) : pod ∈ namesOf pods ↔ pod ∈ pods.filterMap Pod.name :=
    (sortByOrdinal_perm id _).mem_iff
  refine ⟨(namesOf pods).map (pictureOf key.ns bookieId answer), ?_,
    pictures_pairwise (namesOf_pairwise pods), ?_, ?_⟩
  · simp only [List.map_map, Function.comp_def, pictureOf_pod, List.map_id']
    exact sortByOrdinal_perm id _
  · intro node listed
    obtain ⟨pod, -, rfl⟩ := List.mem_map.mp listed
    exact pictureOf_pictured pod
  · intro σ backend delay cancellation time state listed answering replied
    simp only [← named]
    exact ⟨bookieNodes_interrupted answering replied, bookieNodes_answered answering replied⟩

/-- Three bookies listed out of order, and a pod without a name. The queries take seventeen milliseconds together,
but side by side the last answer comes after nine, and one query fails. A survey that is cancelled after that is
the same as one that is not, one that is cancelled by then is none. -/
theorem bookieNodes_snapshot_three :
    let key : SetKey := ⟨"ns", "bk", .bookkeeper, "default"⟩
    let pods : List Pod := [{ name := some "bk-10" }, {}, { name := some "bk-2" }, { name := some "bk-0" }]
    let answer (command : BookieCommand) : Output :=
      if command.action = .state then .ok "\x7b\"running\":true\x7d"
      else if command.pod = "bk-10" then .error (.exec "bk-10" "connection refused")
      else .ok "\x7b\"freeSpace\":80,\"totalSpace\":100\x7d"
    let delay (command : BookieCommand) : Nat :=
      match command.pod, command.action with
      | "bk-2", .state => 4
      | "bk-2", _ => 5
      | "bk-10", .state => 3
      | "bk-10", _ => 1
      | _, _ => 2
    let backend : Backend Unit := {
      reply request _ _ :=
        (match request with
          | .pods .. => .ok pods
          | .readyReplicas .. | .currentReplicas .. => .ok none
          | .cpuUsage .. | .volumes .. => .ok []
          | .deleteVolume .. | .patchReplicas .. => .ok (), ())
      output command _ _ := ((delay command, answer command), ()) }
    let collect (cancellation : Cancellation) := ((bookieNodes key id).run backend cancellation 0 ()).result
    collect none = .ok [⟨"bk-0", "bk-0", true, [⟨100, 20⟩]⟩, ⟨"bk-2", "bk-2", true, [⟨100, 20⟩]⟩,
        ⟨"bk-10", "bk-10", false, []⟩] ∧
      collect (some 10) = collect none ∧ collect (some 9) = .error .cancelled := by
  intro key pods answer delay backend collect
  have uncancelled (command : BookieCommand) : answer command ≠ .error .cancelled := by
    simp only [answer]
    split
    · nofun
    · split <;> nofun
  have last : ∀ pod ∈ pods.filterMap Pod.name, 0 + delay ⟨"ns", pod, .state⟩ + delay ⟨"ns", pod, .info⟩ ≤ 9 := by
    decide +kernel
  obtain ⟨nodes, -, -, -, law⟩ := bookieNodes_snapshot key id pods answer
  have law (cancellation : Cancellation) := law backend delay cancellation 0 () () (fun _ _ _ => rfl) rfl
  have complete {cancellation : Cancellation} (unfired : cancellation.firedBy 9 = false) :
      collect cancellation = .ok nodes := by
    apply (law cancellation).2
    rintro pod listed (fired | cancelled | cancelled)
    · cases (Cancellation.unfired_of_le unfired (last pod listed)).symm.trans fired
    · exact uncancelled _ cancelled
    · exact uncancelled _ cancelled
  have named : namesOf pods = ["bk-0", "bk-2", "bk-10"] := sortByOrdinal_eq (by decide) (by decide +kernel)
  refine ⟨congrArg Ended.result (bookieNodes_read rfl named ?_), (complete rfl).trans (complete rfl).symm,
    (law (some 9)).1 ⟨"bk-2", by decide, .inl rfl⟩⟩
  decide +kernel

end SetScaler.Survey
