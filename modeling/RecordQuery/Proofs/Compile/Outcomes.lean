import Mathlib.Data.List.Basic
import RecordQuery.Proofs.Compile.Comparisons
import RecordQuery.Proofs.Compile.Recursion

/-!
# What compiling can end with

A backend works in a monad, and the same request to it may end now with one outcome, now with
another. Still, what the compilation of a query can end with is no more than what its comparisons
can end with: they are tried from left to right, and the first one that is refused ends the
compilation. `Tried` is the relation between comparisons, the error and the requests made on the way
that says so. It goes through connectives and groups, since it holds of two lists of comparisons one
behind the other if it holds of each.

What a computation can end with is the library's `MonadAttach.CanReturn`, in a monad where this is
the strongest thing that holds of every result. Without effects it is the result itself.

## Main results

* `Backend.run_compile_logged_query`: a comparison is at most one request
* `Backend.tried_of_compile_logged`: what is asked for and what comes of it
* `Backend.compileText_not_incomplete`: no text leads to the error about a node that waits
-/

namespace RecordQuery

open MonadAttach (CanReturn)

/-! ## Comparisons -/

/-- Whether a request is about a comparison. -/
def Request.isComparison {P : Type} : Request P → Bool
  | scalar .. | member .. => true
  | join .. | group .. => false

theorem Request.filter_append_of_eq_false {P : Type} (requests : List (Request P))
    {request : Request P} (h : request.isComparison = false) :
    (requests ++ [request]).filter isComparison = requests.filter isComparison := by
  simp [h]

namespace Comparison

/-- The tree that is only a comparison. -/
def query (c : Comparison) : Query := .comparison c.operator c.field c.literal

/-- What a backend is asked for a comparison, or why its literal cannot be mapped. -/
def request {P : Type} (mappers : Mappers) (c : Comparison) : Except QueryError (Request P) :=
  match c.operator with
  | .relation relation =>
    match Mappers.map mappers c.field c.literal with
    | .ok value => .ok (.scalar relation c.field value)
    | .error e => .error (.mapping e)
  | .member =>
    match listElements? c.literal with
    | none => .error (.malformedList c.field c.literal)
    | some elements =>
      match mapLiterals mappers c.field elements with
      | .ok values => .ok (.member c.field values)
      | .error e => .error (.mapping e)

variable {P : Type} {mappers : Mappers} {c : Comparison}

theorem isComparison_of_request {request : Request P} (h : c.request mappers = .ok request) :
    request.isComparison = true := by
  unfold Comparison.request at h
  repeat' split at h
  all_goals cases h
  all_goals rfl

theorem request_ne_incomplete {node : Text} :
    (c.request mappers : Except QueryError (Request P)) ≠ .error (.incomplete node) := by
  unfold Comparison.request
  repeat' split
  all_goals nofun

end Comparison

/-- The error that something ended with. -/
def error? {ε α : Type} : Except ε α → Option ε
  | .ok _ => none
  | .error e => some e

namespace Backend

variable {m : Type → Type} [Monad m] {P : Type}

section

variable [MonadAttach m]

/-- What a comparison on its own can end with. -/
def Gives (backend : Backend m P) (mappers : Mappers) (c : Comparison)
    (outcome : Except QueryError P) : Prop :=
  CanReturn (backend.compile mappers c.query).run outcome

/-- A comparison is accepted on its own. -/
def Accepts (backend : Backend m P) (mappers : Mappers) (c : Comparison) : Prop :=
  ∃ p, backend.Gives mappers c (.ok p)

/-- Comparisons are tried in order up to the first one that is refused, with the error and the
requests that are made for them. -/
inductive Tried (backend : Backend m P) (mappers : Mappers) :
    List Comparison → Option QueryError → List (Request P) → Prop
  | nil : Tried backend mappers [] none []
  | accepted {c : Comparison} {later : List Comparison} {p : P} {request : Request P}
      {e : Option QueryError} {requests : List (Request P)} (h : backend.Gives mappers c (.ok p))
      (hrequest : c.request mappers = .ok request)
      (hlater : Tried backend mappers later e requests) :
      Tried backend mappers (c :: later) e (request :: requests)
  | refused {c : Comparison} {e : QueryError} (h : backend.Gives mappers c (.error e))
      (later : List Comparison) :
      Tried backend mappers (c :: later) (some e) (c.request mappers).toOption.toList

variable {backend : Backend m P} {mappers : Mappers} {cs ds : List Comparison} {e : QueryError}
  {requests : List (Request P)}

/-- If none is refused, the comparisons behind are tried. -/
theorem Tried.append {e : Option QueryError} {requests' : List (Request P)}
    (h : Tried backend mappers cs none requests) (h' : Tried backend mappers ds e requests') :
    Tried backend mappers (cs ++ ds) e (requests ++ requests') := by
  generalize hnone : none = e' at h
  induction h with
  | nil => exact h'
  | accepted h hrequest _ ih => exact .accepted h hrequest (ih hnone)
  | refused => cases hnone

/-- If one is refused, the comparisons behind are not tried. -/
theorem Tried.append_of_refused (h : Tried backend mappers cs (some e) requests)
    (ds : List Comparison) : Tried backend mappers (cs ++ ds) (some e) requests := by
  generalize hsome : some e = e' at h ⊢
  induction h with
  | nil => cases hsome
  | accepted h hrequest _ ih => exact .accepted h hrequest (ih hsome)
  | refused h later => exact .refused h (later ++ ds)

/-- If none is refused, each is accepted and was asked for. -/
theorem Tried.accepted_all (h : Tried backend mappers cs none requests) :
    (∀ c ∈ cs, backend.Accepts mappers c) ∧
      cs.map (Comparison.request mappers) = requests.map .ok := by
  generalize hnone : none = e' at h
  induction h with
  | nil => exact ⟨nofun, rfl⟩
  | accepted h hrequest _ ih =>
    obtain ⟨hall, hmap⟩ := ih hnone
    refine ⟨List.forall_mem_cons.2 ⟨⟨_, h⟩, hall⟩, ?_⟩
    rw [List.map_cons, List.map_cons, hrequest, hmap]
  | refused => cases hnone

/-- The error is that of one comparison; those in front of it are accepted and were asked for. -/
theorem Tried.exists_refused (h : Tried backend mappers cs (some e) requests) :
    ∃ before c later made, cs = before ++ c :: later ∧
      Tried backend mappers before none made ∧ backend.Gives mappers c (.error e) ∧
      requests = made ++ (c.request mappers).toOption.toList := by
  generalize hsome : some e = e' at h
  induction h with
  | nil => cases hsome
  | accepted h hrequest _ ih =>
    obtain ⟨before, c', later, made, rfl, hbefore, hc', rfl⟩ := ih hsome
    exact ⟨_ :: before, c', later, _ :: made, rfl, .accepted h hrequest hbefore, hc', rfl⟩
  | @refused c e' h later =>
    obtain rfl := Option.some.inj hsome
    exact ⟨[], c, later, [], rfl, .nil, h, rfl⟩

end

variable [LawfulMonad m]

/-! ## Compiling one comparison -/

theorem compile_query (backend : Backend m P) (mappers : Mappers) (c : Comparison) :
    backend.compile mappers c.query = match c.request mappers with
      | .ok request => backend.answer request
      | .error e => throw e := by
  obtain ⟨operator, field, literal⟩ := c
  rw [Comparison.query, compile_comparison]
  cases operator with
  | relation relation =>
    rw [comparison, Comparison.request]
    cases Mappers.map mappers field literal <;> rfl
  | member =>
    rw [comparison, Comparison.request]
    cases listElements? literal with
    | none => rfl
    | some elements =>
      dsimp only
      cases mapLiterals mappers field elements <;> rfl

/-- A comparison is one request, or none if its literal cannot be mapped. -/
theorem run_compile_logged_query (backend : Backend m P) (mappers : Mappers) (c : Comparison)
    (before : List (Request P)) :
    (backend.logged.compile mappers c.query).run.run before =
      (fun outcome => (outcome, before ++ (c.request mappers).toOption.toList)) <$>
        (backend.compile mappers c.query).run := by
  rw [compile_query, compile_query]
  cases c.request mappers with
  | ok request => exact run_answer_logged backend request before
  | error e => simp [Except.toOption]

/-! ## What can be returned -/

variable [MonadAttach m] [LawfulMonadAttach m] {backend : Backend m P} {mappers : Mappers}
  {before after : List (Request P)} {outcome : Except QueryError P}

/-- A computation that goes on has ended with an error at once, or goes on with a value. -/
theorem canReturn_run_bind {σ α β : Type} {x : ExceptT QueryError (StateT σ m) α}
    {f : α → ExceptT QueryError (StateT σ m) β} {s s' : σ} {outcome : Except QueryError β}
    (h : CanReturn ((x >>= f).run.run s) (outcome, s')) :
    (∃ e, outcome = .error e ∧ CanReturn (x.run.run s) (.error e, s')) ∨
      ∃ a t, CanReturn (x.run.run s) (.ok a, t) ∧
        CanReturn ((f a).run.run t) (outcome, s') := by
  rw [ExceptT.run_bind, StateT.run_bind] at h
  obtain ⟨⟨first, t⟩, hx, hf⟩ := LawfulMonadAttach.canReturn_bind_imp' h
  cases first with
  | ok a => exact .inr ⟨a, t, hx, hf⟩
  | error e =>
    obtain ⟨rfl, rfl⟩ := Prod.mk.inj (LawfulMonadAttach.eq_of_canReturn_pure hf)
    exact .inl ⟨e, rfl, hx⟩

/-- Joining and grouping cannot be refused. -/
theorem not_canReturn_lift {x : m P} {e : QueryError} :
    ¬ CanReturn (ExceptT.lift (ε := QueryError) x).run (.error e) := by
  intro h
  rw [ExceptT.run_lift] at h
  obtain ⟨p, -, h⟩ := LawfulMonadAttach.canReturn_map_imp' h
  cases h

/-- Joining and grouping are not about a comparison. -/
theorem canReturn_answer_logged (request : Request P) (hrequest : request.isComparison = false)
    (h : CanReturn ((backend.logged.answer request).run.run before) (outcome, after)) :
    error? outcome = none ∧ after = before ++ [request] := by
  rw [run_answer_logged] at h
  obtain ⟨outcome', hanswer, heq⟩ := LawfulMonadAttach.canReturn_map_imp' h
  obtain ⟨rfl, rfl⟩ := Prod.mk.inj heq
  refine ⟨?_, rfl⟩
  have hlift (x : m P) (hx : CanReturn (ExceptT.lift (ε := QueryError) x).run outcome') :
      error? outcome' = none := by
    cases outcome' with
    | ok p => rfl
    | error e => exact absurd hx not_canReturn_lift
  cases request with
  | scalar | member => cases hrequest
  | join connective left right => exact hlift (backend.join connective left right) hanswer
  | group inner => exact hlift (backend.group inner) hanswer

/-- A literal that cannot be mapped is the only thing that a comparison can end with. -/
theorem Gives.eq_error {c : Comparison} {e : QueryError} (h : backend.Gives mappers c outcome)
    (hrequest : (c.request mappers : Except QueryError (Request P)) = .error e) :
    outcome = .error e := by
  rw [Gives, compile_query, hrequest] at h
  exact (LawfulMonadAttach.eq_of_canReturn_pure h).symm

theorem tried_of_compile_logged_query {c : Comparison}
    (h : CanReturn ((backend.logged.compile mappers c.query).run.run before) (outcome, after)) :
    ∃ requests, after = before ++ requests ∧
      Tried backend mappers [c] (error? outcome) (requests.filter Request.isComparison) := by
  rw [run_compile_logged_query] at h
  obtain ⟨outcome', hgives : backend.Gives mappers c outcome', heq⟩ :=
    LawfulMonadAttach.canReturn_map_imp' h
  obtain ⟨rfl, rfl⟩ := Prod.mk.inj heq
  refine ⟨_, rfl, ?_⟩
  have hfilter : (c.request mappers).toOption.toList.filter Request.isComparison =
      ((c.request mappers).toOption.toList : List (Request P)) := by
    cases hr : (c.request mappers : Except QueryError (Request P)) with
    | ok request => simp [Except.toOption, Comparison.isComparison_of_request hr]
    | error e => rfl
  rw [hfilter]
  cases outcome' with
  | error e => exact .refused hgives []
  | ok p =>
    cases hr : (c.request mappers : Except QueryError (Request P)) with
    | ok request => exact .accepted hgives hr .nil
    | error e => cases hgives.eq_error hr

/-- **The comparisons of a tree are tried from left to right**, whatever else is asked for. -/
theorem tried_of_compile_logged {q : Query} (hq : q.dangles = false)
    (h : CanReturn ((backend.logged.compile mappers q).run.run before) (outcome, after)) :
    ∃ requests, after = before ++ requests ∧
      Tried backend mappers q.comparisons (error? outcome)
        (requests.filter Request.isComparison) := by
  induction q generalizing before outcome after with
  | comparison operator field literal =>
    exact tried_of_compile_logged_query (c := ⟨operator, field, literal⟩) h
  | joined connective left right ihl ihr =>
    obtain ⟨hl, hr⟩ := Bool.or_eq_false_iff.1 hq
    rw [compile_joined] at h
    rcases canReturn_run_bind h with ⟨e, rfl, hleft⟩ | ⟨l, t, hleft, hrest⟩
    · obtain ⟨requests, rfl, htried⟩ := ihl hl hleft
      exact ⟨requests, rfl, htried.append_of_refused _⟩
    · obtain ⟨requests, rfl, htried⟩ := ihl hl hleft
      rcases canReturn_run_bind hrest with ⟨e, rfl, hright⟩ | ⟨r, t, hright, hjoin⟩
      · obtain ⟨requests', rfl, htried'⟩ := ihr hr hright
        refine ⟨requests ++ requests', List.append_assoc .., ?_⟩
        rw [List.filter_append]
        exact htried.append htried'
      · obtain ⟨requests', rfl, htried'⟩ := ihr hr hright
        obtain ⟨hnone, rfl⟩ := canReturn_answer_logged (.join connective l r) rfl hjoin
        refine ⟨requests ++ requests' ++ [.join connective l r], by simp, ?_⟩
        rw [hnone, Request.filter_append_of_eq_false _ rfl, List.filter_append]
        exact htried.append htried'
  | dangling connective left => cases hq
  | group inner ih =>
    rw [compile_group] at h
    rcases canReturn_run_bind h with ⟨e, rfl, hinner⟩ | ⟨p, t, hinner, hgroup⟩
    · exact ih hq hinner
    · obtain ⟨requests, rfl, htried⟩ := ih hq hinner
      obtain ⟨hnone, rfl⟩ := canReturn_answer_logged (.group p) rfl hgroup
      refine ⟨requests ++ [.group p], List.append_assoc .., ?_⟩
      rw [hnone, Request.filter_append_of_eq_false _ rfl]
      exact htried

/-! ## Nodes that wait -/

/-- What a compilation can end with comes of its comparisons. -/
theorem tried_of_compile {q : Query} (hq : q.dangles = false)
    (h : CanReturn (backend.compile mappers q).run outcome) :
    ∃ requests, Tried backend mappers q.comparisons (error? outcome) requests := by
  rw [← backend.does_compile_logged mappers q []] at h
  obtain ⟨⟨outcome, after⟩, hlogged, rfl⟩ := LawfulMonadAttach.canReturn_map_imp' h
  obtain ⟨requests, -, htried⟩ := tried_of_compile_logged hq hlogged
  exact ⟨_, htried⟩

/-- **No text leads to the error about a node that waits**, unless a request to the backend ends
with it: every tree that the parser accepts is complete, so the check for such nodes never fails. -/
theorem compileText_not_incomplete (backend : Backend m P)
    (hbackend : ∀ (request : Request P) (node : Text),
      ¬ CanReturn (backend.answer request).run (.error (.incomplete node)))
    (mappers : Mappers) (limits : Limits) (text : Text) :
    (∀ q, Query.parse limits text = .ok q → q.dangles = false) ∧
      ∀ node : Text,
        ¬ CanReturn (backend.compileText mappers limits text).run (.error (.incomplete node)) := by
  have hparsed : ∀ q, Query.parse limits text = .ok q → q.dangles = false :=
    fun q hq => (Query.parse_eq_ok_iff.1 hq).1.dangles
  refine ⟨hparsed, fun node h => ?_⟩
  rw [compileText] at h
  cases hq : Query.parse limits text with
  | error e =>
    rw [hq] at h
    cases LawfulMonadAttach.eq_of_canReturn_pure h
  | ok q =>
    rw [hq] at h
    obtain ⟨requests, htried⟩ := tried_of_compile (hparsed q hq) h
    obtain ⟨_, c, _, _, -, -, hgives, -⟩ := htried.exists_refused
    cases hr : (c.request mappers : Except QueryError (Request P)) with
    | ok request =>
      rw [Gives, compile_query, hr] at hgives
      exact hbackend request node hgives
    | error e =>
      obtain rfl := Except.error.inj (hgives.eq_error hr)
      exact Comparison.request_ne_incomplete hr

/-- A text of every form of tree, with a field that the backend refuses at its end. -/
theorem compileText_not_incomplete_unknownField :
    let backend := Trace.backend (some [['a'], ['b'], ['c']])
    let text : Text := "a = 1 && (b ∈ [2, 3] || c > 4) && d < 5".toList
    (∀ (request : Request Nat) (node : Text),
      ¬ CanReturn (backend.answer request).run (.error (.incomplete node))) ∧
    ((backend.compileText .empty {} text).run.run []).1 = .error (.unknownField ['d']) ∧
    ∀ node : Text,
      ¬ CanReturn (backend.compileText .empty {} text).run (.error (.incomplete node)) := by
  intro backend text
  have hbackend : ∀ (request : Request Nat) (node : Text),
      ¬ CanReturn (backend.answer request).run (.error (.incomplete node)) := by
    have hrecordOn : ∀ (field : Text) (call : Call) (calls calls' : List Call) (node : Text),
        (Trace.recordOn (some [['a'], ['b'], ['c']]) field call).run.run calls ≠
          (.error (.incomplete node), calls') := by
      intro field call calls calls' node
      rw [Trace.recordOn]
      split <;> nofun
    rintro (⟨relation, field, value⟩ | ⟨field, values⟩ | ⟨connective, left, right⟩ | inner) node
      ⟨calls, calls', h⟩
    · exact hrecordOn _ _ _ _ _ h
    · exact hrecordOn _ _ _ _ _ h
    · cases h
    · cases h
  have hparse : Query.parse {} text = .ok (.joined .and (.joined .and
      (.comparison (.relation .equal) ['a'] ['1'])
      (.group (.joined .or (.comparison .member ['b'] "[2, 3]".toList)
        (.comparison (.relation .greater) ['c'] ['4']))))
      (.comparison (.relation .less) ['d'] ['5'])) := by
    decide +kernel
  have houtcome : ((backend.compileText .empty {} text).run.run []).1 =
      .error (.unknownField ['d']) := by
    rw [compileText, hparse]
    rfl
  exact ⟨hbackend, houtcome, (backend.compileText_not_incomplete hbackend .empty {} text).2⟩

end Backend

end RecordQuery
