import Dimensional.Compiler
import Dimensional.Proofs.Except
import Dimensional.Proofs.Recent

/-! Compilers at work. What they reply does not depend on what they keep at hand, and they keep the
quantities that were asked for last. -/

namespace Dimensional.Compiler

/-- What a compiler can be asked for. -/
inductive Request where
  | quantity (source : String)
  | numeric (source : String)
  | statements (grammar : Grammar) (source : String)

/-- What it replies. -/
inductive Reply where
  | quantity (result : Except ParseError Compiled)
  | numeric (result : Except ParseError Expression)
  | statements (result : Except ParseError (List Expression))

/-- A reply whose quantity is not told from an equal one. -/
def Reply.unnumbered : Reply → Reply
  | quantity result => quantity (result.map fun compiled => { compiled with serial := 0 })
  | reply => reply

def serve (compiler : Compiler) : Request → Reply × Compiler
  | .quantity source =>
    let (result, after) := compiler.quantity source
    (.quantity result, after)
  | .numeric source => (.numeric (compiler.numeric source), compiler)
  | .statements grammar source => (.statements (compiler.statements grammar source), compiler)

/-- The quantity that a request led to, and its source. -/
def use? : Request → Reply → Option (String × Compiled)
  | .quantity source, .quantity (.ok compiled) => some (source, compiled)
  | _, _ => none

/-- A compiler with what it was asked for and what it replied, the last reply first. -/
structure Session where
  compiler : Compiler
  served : List (Request × Reply)

namespace Session

def start (scope : Scope) (capacity : Nat) : Session := ⟨.ofCapacity scope capacity, []⟩

def serve (session : Session) (request : Request) : Session :=
  let (reply, after) := session.compiler.serve request
  ⟨after, (request, reply) :: session.served⟩

def serveAll (session : Session) (requests : List Request) : Session :=
  requests.foldl serve session

/-- The quantities that were read or found at hand, the last one first. -/
def uses (session : Session) : List (String × Compiled) :=
  session.served.filterMap fun (request, reply) => use? request reply

end Session

variable {compiler : Compiler} {scope : Scope} {capacity : Nat} {session : Session}
  {uses : List (String × Compiled)} {request : Request}

/-- A quantity is at hand, or it is read, or reading it fails. -/
theorem quantity_cases (seen : Recent.policy.HasSeen compiler.cache capacity uses)
    (source : String) :
    (∃ compiled cache, Recent.kept? capacity uses source = some compiled ∧
      Recent.policy.HasSeen cache capacity ((source, compiled) :: uses) ∧
      compiler.quantity source = (.ok compiled, { compiler with cache })) ∨
    (Recent.kept? capacity uses source = none ∧
      ((∃ expression cache, Parser.read compiler.setting .quantity source = .ok expression ∧
        Recent.policy.HasSeen cache capacity ((source, ⟨compiler.count, expression⟩) :: uses) ∧
        compiler.quantity source = (.ok ⟨compiler.count, expression⟩,
          { compiler with cache, count := compiler.count + 1 })) ∨
      ∃ error, Parser.read compiler.setting .quantity source = .error error ∧
        compiler.quantity source = (.error error, compiler))) := by
  unfold quantity
  cases found : Recent.kept? capacity uses source with
  | some compiled =>
    left
    obtain ⟨cache, used, later⟩ := seen.use? found
    have hit : compiler.cache.use? source = some (compiled, cache) := used
    refine ⟨compiled, cache, rfl, later, ?_⟩
    rw [hit]
  | none =>
    right
    refine ⟨rfl, ?_⟩
    have miss : compiler.cache.use? source = none := seen.use?_eq_none found
    rw [miss]
    cases read : Parser.read compiler.setting .quantity source with
    | ok expression =>
      left
      exact ⟨expression, _, rfl, seen.put, rfl⟩
    | error error =>
      right
      exact ⟨error, rfl, rfl⟩

/-- The cache has seen the quantities handed out, and they are numbered and what their sources
say. -/
structure Session.Kept (scope : Scope) (capacity : Nat) (session : Session) : Prop where
  fixed : session.compiler.scope = scope
  seen : Recent.policy.HasSeen session.compiler.cache (max 1 capacity) session.uses
  numbered : ∀ use ∈ session.uses, use.2.serial < session.compiler.count
  read : ∀ use ∈ session.uses,
    Parser.read (.standard scope.vocabulary) .quantity use.1 = .ok use.2.expression

namespace Session

theorem kept_start : (start scope capacity).Kept scope capacity :=
  ⟨rfl, Recent.Policy.hasSeen_ofCapacity, nofun, nofun⟩

theorem Kept.setting_eq (kept : session.Kept scope capacity) :
    session.compiler.setting = .standard scope.vocabulary := by
  rw [setting, kept.fixed]

theorem serve_quantity {source : String} {result : Except ParseError Compiled} {after : Compiler}
    (h : session.compiler.quantity source = (result, after)) :
    session.serve (.quantity source) =
      ⟨after, (.quantity source, .quantity result) :: session.served⟩ := by
  rw [serve, Compiler.serve, h]

theorem Kept.serve (kept : session.Kept scope capacity) (request : Request) :
    (session.serve request).Kept scope capacity := by
  cases request with
  | numeric source => exact ⟨kept.fixed, kept.seen, kept.numbered, kept.read⟩
  | statements grammar source => exact ⟨kept.fixed, kept.seen, kept.numbered, kept.read⟩
  | quantity source =>
    rcases quantity_cases kept.seen source with
      ⟨compiled, cache, found, seen, served⟩ |
        ⟨_, ⟨expression, cache, read, seen, served⟩ | ⟨error, read, served⟩⟩
    · have member : (source, compiled) ∈ session.uses := Recent.mem_of_kept? found
      rw [serve_quantity served]
      exact ⟨kept.fixed, seen, List.forall_mem_cons.mpr ⟨kept.numbered _ member, kept.numbered⟩,
        List.forall_mem_cons.mpr ⟨kept.read _ member, kept.read⟩⟩
    · rw [kept.setting_eq] at read
      rw [serve_quantity served]
      refine ⟨kept.fixed, seen, List.forall_mem_cons.mpr ⟨Nat.lt_succ_self _, ?_⟩,
        List.forall_mem_cons.mpr ⟨read, kept.read⟩⟩
      exact fun use member => Nat.lt_succ_of_lt (kept.numbered use member)
    · rw [serve_quantity served]
      exact ⟨kept.fixed, kept.seen, kept.numbered, kept.read⟩

theorem Kept.serveAll (kept : session.Kept scope capacity) (requests : List Request) :
    (session.serveAll requests).Kept scope capacity := by
  induction requests generalizing session with
  | nil => exact kept
  | cons request requests ih => exact ih (kept.serve request)

/-- A quantity at hand is what would be read. -/
theorem Kept.expression_eq (kept : session.Kept scope capacity) (source : String) :
    (session.compiler.quantity source).1.map Compiled.expression =
      Parser.read (.standard scope.vocabulary) .quantity source := by
  rcases quantity_cases kept.seen source with
    ⟨compiled, _, found, _, served⟩ | ⟨_, ⟨expression, _, read, _, served⟩ | ⟨error, read, served⟩⟩
  · rw [served, kept.read _ (Recent.mem_of_kept? found)]
    rfl
  · rw [served, ← kept.setting_eq, read]
    rfl
  · rw [served, ← kept.setting_eq, read]
    rfl

theorem Kept.unnumbered_eq (kept : session.Kept scope capacity) (request : Request) (fresh : Nat) :
    (session.compiler.serve request).1.unnumbered =
      ((ofCapacity scope fresh).serve request).1.unnumbered := by
  have settings : session.compiler.setting = (ofCapacity scope fresh).setting := kept.setting_eq
  cases request with
  | numeric source =>
    rw [Compiler.serve, Compiler.serve, numeric, numeric, settings]
  | statements grammar source =>
    rw [Compiler.serve, Compiler.serve, statements, statements, settings]
  | quantity source =>
    have begun : (start scope fresh).Kept scope fresh := kept_start
    have alike : (session.compiler.quantity source).1.map Compiled.expression =
        ((ofCapacity scope fresh).quantity source).1.map Compiled.expression :=
      (kept.expression_eq source).trans (begun.expression_eq source).symm
    have numbers (result : Except ParseError Compiled) : (Reply.quantity result).unnumbered =
        .quantity ((result.map Compiled.expression).map (Compiled.mk 0)) := by
      cases result <;> rfl
    exact (numbers _).trans ((congrArg (Reply.quantity <| ·.map (Compiled.mk 0)) alike).trans
      (numbers _).symm)

/-- What the cache finds is handed out again. -/
theorem Kept.quantity_of_found (kept : session.Kept scope capacity) {source : String}
    {compiled : Compiled}
    (found : Recent.kept? (max 1 capacity) session.uses source = some compiled) :
    (session.compiler.quantity source).1 = .ok compiled := by
  rcases quantity_cases kept.seen source with ⟨last, _, again, _, served⟩ | ⟨absent, _⟩
  · rw [served, Option.some_inj.mp (again.symm.trans found)]
  · rw [absent] at found
    cases found

/-- What the cache does not find is read anew. -/
theorem Kept.serial_ne (kept : session.Kept scope capacity) {source : String} {compiled : Compiled}
    (absent : Recent.kept? (max 1 capacity) session.uses source = none)
    (h : (session.compiler.quantity source).1 = .ok compiled) :
    ∀ use ∈ session.uses, use.2.serial ≠ compiled.serial := by
  intro use member
  rcases quantity_cases kept.seen source with
    ⟨last, _, found, _⟩ | ⟨_, ⟨expression, _, _, _, served⟩ | ⟨error, _, served⟩⟩
  · rw [absent] at found
    cases found
  · rw [served] at h
    cases h
    exact Nat.ne_of_lt (kept.numbered use member)
  · rw [served] at h
    cases h

/-- What leads to no quantity leaves no trace. -/
theorem Kept.compiler_eq (kept : session.Kept scope capacity)
    (h : use? request (session.compiler.serve request).1 = none) :
    (session.compiler.serve request).2 = session.compiler := by
  cases request with
  | numeric => rfl
  | statements => rfl
  | quantity source =>
    rw [Compiler.serve] at h ⊢
    rcases quantity_cases kept.seen source with
      ⟨compiled, _, _, _, served⟩ | ⟨_, ⟨expression, _, _, _, served⟩ | ⟨error, _, served⟩⟩
    · rw [served] at h
      cases h
    · rw [served] at h
      cases h
    · rw [served]

end Session

/-- Keeping quantities at hand changes no reply. A quantity is handed out again exactly when fewer
others were used since than the compiler keeps, and is a new one otherwise; as many are kept as have
been used and there is room for; and what leads to no quantity leaves no trace. -/
theorem serve_exact (scope : Scope) (capacity : Nat) (requests : List Request) (session : Session)
    (h : (Session.start scope capacity).serveAll requests = session) :
    (∀ request fresh, (session.compiler.serve request).1.unnumbered =
      ((ofCapacity scope fresh).serve request).1.unnumbered) ∧
    (∀ source, Recent.Keeps (max 1 capacity) session.uses source ↔
      ∃ compiled, session.uses.lookup source = some compiled ∧
        (session.compiler.quantity source).1 = .ok compiled) ∧
    (∀ source compiled, ¬ Recent.Keeps (max 1 capacity) session.uses source →
      (session.compiler.quantity source).1 = .ok compiled →
        ∀ use ∈ session.uses, use.2.serial ≠ compiled.serial) ∧
    session.compiler.cachedCount = min (max 1 capacity) (Recent.distinct session.uses) ∧
    (∀ request, use? request (session.compiler.serve request).1 = none →
      (session.compiler.serve request).2 = session.compiler) := by
  have kept : session.Kept scope capacity := by
    rw [← h]
    exact Session.kept_start.serveAll requests
  have absent (source : String) (unkept : ¬ Recent.Keeps (max 1 capacity) session.uses source) :
      Recent.kept? (max 1 capacity) session.uses source = none := by
    rw [Recent.keeps_iff, ← Option.isSome_iff_exists] at unkept
    simpa using unkept
  refine ⟨kept.unnumbered_eq, fun source => ⟨?_, ?_⟩,
    fun source _ unkept => kept.serial_ne (absent source unkept), ?_, fun _ => kept.compiler_eq⟩
  · intro keeps
    obtain ⟨compiled, found⟩ := Recent.keeps_iff.mp keeps
    exact ⟨compiled, (Recent.kept?_eq_some_iff.mp found).1, kept.quantity_of_found found⟩
  · rintro ⟨compiled, last, served⟩
    by_contra unkept
    exact kept.serial_ne (absent source unkept) served _ (Recent.mem_of_lookup last) rfl
  · exact kept.seen.size

/-- One quantity is kept at least: after kilograms and metres, metres are at hand, and kilograms are
read once more. -/
theorem exists_quantity_reread :
    ∃ session, (Session.start .si 0).serveAll [.quantity "kg", .quantity "m"] = session ∧
      session.compiler.cachedCount = 1 ∧
      (∃ compiled, session.uses.lookup "m" = some compiled ∧
        (session.compiler.quantity "m").1 = .ok compiled) ∧
      ∃ compiled, (session.compiler.quantity "kg").1 = .ok compiled ∧
        ∀ use ∈ session.uses, use.2.serial ≠ compiled.serial := by
  obtain ⟨_, again, anew, count, _⟩ :=
    serve_exact .si 0 [.quantity "kg", .quantity "m"] _ rfl
  refine ⟨_, rfl, ?_, (again "m").mp (by decide +kernel), ?_⟩
  · rw [count]
    decide +kernel
  · have reread : (((Session.start .si 0).serveAll
        [.quantity "kg", .quantity "m"]).compiler.quantity "kg").1.toOption.isSome := by
      decide +kernel
    obtain ⟨compiled, some⟩ := Option.isSome_iff_exists.mp reread
    have read := Except.toOption_eq_some.mp some
    exact ⟨compiled, read, anew "kg" compiled (by decide +kernel) read⟩

end Dimensional.Compiler
