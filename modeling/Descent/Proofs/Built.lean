import Descent.Parser.Recursion
import Descent.Proofs.Sequential

/-!
# Parsers built by constructors

A parser is a function of states, and an arbitrary function keeps no law. What the library has to
say about all parsers it says about those that are put together by its constructors: each
constructor adds a case here, or is a combination of those that have one. Functions that a
grammar supplies, the continuation of a bind, a test, the steps of a script, are arbitrary and
may fault.

Whether a grammar may itself claim that the input has ended, by failing with the kind that says
so, is a parameter. Parsers that do not claim it meet the end of the input only where it is.

A rule that refers to itself is made anew for each number of unread items. The class has a case
for parsers made so, and with it `Built.recursive` follows by induction on that number: a body
that keeps its inner uses within the class makes a rule of the class.
-/

namespace Descent

/-- A parser made when it is run, for the number of items that are unread then. -/
def Parser.byUnread (make : Nat → Parser) : Parser where
  name := "delay"
  run s := (make s.unread).run s

/-- The parsers that the constructors make. Names do not matter. -/
inductive Built (claimsEnd : Prop) : Parser → Prop where
  | renamed {p q : Parser} (built : Built claimsEnd p) (sameRun : q.run = p.run) :
      Built claimsEnd q
  | succeed (v : Value) : Built claimsEnd (Parser.succeed v)
  | raising (fault : Fault) : Built claimsEnd (Parser.raising fault)
  | failing (message : String) (kind : FailureKind) (admitted : kind = .eof → claimsEnd) :
      Built claimsEnd (Parser.failing message kind)
  | token (count : Nat) : Built claimsEnd (Parser.token count)
  | atEnd : Built claimsEnd Parser.atEnd
  | bind {p : Parser} {next : Value → Parser} (first : Built claimsEnd p)
      (second : ∀ v, Built claimsEnd (next v)) : Built claimsEnd (p.bind next)
  | label {p : Parser} (expected : String) (built : Built claimsEnd p) :
      Built claimsEnd (p.label expected)
  | lookAhead {p : Parser} (built : Built claimsEnd p) : Built claimsEnd p.lookAhead
  | traced {p : Parser} (tag : String) (level : Int) (built : Built claimsEnd p) :
      Built claimsEnd (p.traced tag level)
  | noted {p : Parser} (n : Note) (built : Built claimsEnd p) : Built claimsEnd (p.noted n)
  | choice {p : Parser} {more : List Parser} (all : ∀ q ∈ p :: more, Built claimsEnd q) :
      Built claimsEnd (Parser.choice p more)
  | refusing {p : Parser} (built : Built claimsEnd p) : Built claimsEnd p.refusing
  | collect {p : Parser} (bounds : Bounds) (built : Built claimsEnd p) :
      Built claimsEnd (p.collect bounds)
  | splitEnd {p separator : Parser} (bounds : Bounds) (built : Built claimsEnd p)
      (ended : Built claimsEnd separator) : Built claimsEnd (p.splitEnd separator bounds)
  | byUnread {make : Nat → Parser} (made : ∀ unread, Built claimsEnd (make unread)) :
      Built claimsEnd (Parser.byUnread make)

namespace Built

variable {claimsEnd : Prop} {p q separator : Parser}

/-! ## Primitive parsers -/

/-- A failure that makes no claim about the end of the input. -/
theorem refusal (message : String) : Built claimsEnd (Parser.failing message) :=
  failing message .failure nofun

theorem deferred (maker : String) {make : Unit → Parser} (built : Built claimsEnd (make ())) :
    Built claimsEnd (Parser.deferred maker make) :=
  renamed built rfl

/-- The class has the constructors for parsers in order, and with them their combinations. -/
theorem sequential : Sequential (Built claimsEnd) where
  renamed := renamed
  succeed := succeed
  raising := raising
  refusal := refusal
  token := token
  bind := bind
  label := label
  noted := noted

theorem map (f : Value → Except Fault Value) (built : Built claimsEnd p) :
    Built claimsEnd (p.map f) :=
  sequential.map f built

theorem tagged (key : Value) (built : Built claimsEnd p) : Built claimsEnd (p.tagged key) :=
  sequential.tagged key built

theorem satisfying (test : Value → Except Fault Bool) (built : Built claimsEnd p) :
    Built claimsEnd (Parser.satisfying test p) :=
  sequential.satisfying test built

theorem rejecting (test : Value → Except Fault Bool) (built : Built claimsEnd p) :
    Built claimsEnd (Parser.rejecting test p) :=
  sequential.rejecting test built

/-! ## Recursion -/

/-- A rule is in the class at every number of unread items, if its body keeps its inner uses
there. Those start with fewer unread items, so this is an induction on the number. -/
theorem unfolded {body : Parser → Parser}
    (closed : ∀ inner, Built claimsEnd inner → Built claimsEnd (body inner)) (unread : Nat) :
    Built claimsEnd (Parser.unfolded body unread) := by
  induction unread using Nat.strongRecOn with
  | ind unread inductionHypothesis =>
    rw [Parser.unfolded]
    apply closed
    have inside : Built claimsEnd (Parser.byUnread fun left =>
        if left < unread then Parser.unfolded body left else Parser.raising .endless) := by
      apply byUnread
      intro left
      by_cases fewer : left < unread
      · rw [if_pos fewer]
        exact inductionHypothesis left fewer
      · rw [if_neg fewer]
        exact raising .endless
    refine renamed inside ?_
    funext s
    by_cases fewer : s.unread < unread <;> simp [Parser.byUnread, fewer, Parser.raising]

/-- A rule that may refer to itself. -/
theorem recursive {body : Parser → Parser}
    (closed : ∀ inner, Built claimsEnd inner → Built claimsEnd (body inner)) :
    Built claimsEnd (Parser.recursive body) :=
  renamed (byUnread (unfolded closed)) rfl

/-- A rule inside itself. -/
theorem within {body : Parser → Parser}
    (closed : ∀ inner, Built claimsEnd inner → Built claimsEnd (body inner)) (unread : Nat) :
    Built claimsEnd (Parser.within body unread) := by
  have inside : Built claimsEnd (Parser.byUnread fun left =>
      if left < unread then Parser.recursive body else Parser.raising .endless) := by
    apply byUnread
    intro left
    split
    · exact recursive closed
    · exact raising .endless
  refine renamed inside ?_
  funext s
  by_cases fewer : s.unread < unread <;>
    simp [Parser.byUnread, Parser.within, fewer, Parser.raising]

/-! ## Combinations -/

theorem chain {more : List Parser} (first : Built claimsEnd p)
    (others : ∀ next ∈ more, Built claimsEnd next) : Built claimsEnd (Parser.chain p more) :=
  sequential.chain first others

/-- A choice between two parsers. -/
theorem either (first : Built claimsEnd p) (second : Built claimsEnd q) :
    Built claimsEnd (Parser.choice p [q]) := by
  apply choice
  intro part member
  rcases List.mem_cons.mp member with rfl | member
  · exact first
  · exact List.mem_singleton.mp member ▸ second

theorem optional (built : Built claimsEnd p) : Built claimsEnd p.optional :=
  either built (succeed .absent)

theorem guarded {more : List Parser} (guard : Built claimsEnd p)
    (others : ∀ next ∈ more, Built claimsEnd next) :
    Built claimsEnd (Parser.guarded p more) :=
  chain (refusing guard) others

theorem gather {more : List Parser} (all : ∀ part ∈ p :: more, Built claimsEnd part) :
    Built claimsEnd (Parser.gather p more) :=
  sequential.gather all

theorem followedBy {more : List Parser} (first : Built claimsEnd p) (second : Built claimsEnd q)
    (others : ∀ next ∈ more, Built claimsEnd next) :
    Built claimsEnd (p.followedBy q more) :=
  sequential.followedBy first second others

/-- One parser that has to follow another. -/
theorem endedBy (first : Built claimsEnd p) (second : Built claimsEnd q) :
    Built claimsEnd (p.followedBy q) :=
  followedBy first second (List.forall_mem_nil _)

theorem between {opening closing : Parser} (opened : Built claimsEnd opening)
    (closed : Built claimsEnd closing) (built : Built claimsEnd p) :
    Built claimsEnd (Parser.between opening closing p) :=
  sequential.between opened closed built

theorem inRange (first last : Value) (comparison : Comparison) (built : Built claimsEnd p) :
    Built claimsEnd (Parser.inRange first last p comparison) :=
  sequential.inRange first last comparison built

/-- A script of parsers of the class that ends with one of them. -/
theorem script (name : String) {body : Script Parser}
    (uses : body.Uses (Built claimsEnd) (Built claimsEnd)) :
    Built claimsEnd (Parser.script name body) :=
  sequential.script name uses

/-! ## Repetition -/

theorem splitSome (bounds : Bounds) (built : Built claimsEnd p)
    (between : Built claimsEnd separator) :
    Built claimsEnd (Parser.splitSome p separator bounds) := by
  have later : Built claimsEnd ((Parser.chain separator [p]).collect bounds.pred) :=
    collect _ (chain between (List.forall_mem_singleton.mpr built))
  refine script _ (Script.uses_bind (Script.uses_parse built) fun first _ => ?_)
  exact Script.uses_bind (Script.uses_items later) fun others _ => succeed _

theorem split (bounds : Bounds) (built : Built claimsEnd p)
    (between : Built claimsEnd separator) :
    Built claimsEnd (Parser.split p separator bounds) := by
  have some_values := splitSome bounds built between
  unfold Parser.split
  by_cases nothing : bounds.most = .finite 0
  · rw [if_pos nothing]
    exact succeed _
  · rw [if_neg nothing]
    by_cases free : bounds.least = .finite 0
    · rw [if_pos free]
      exact either some_values (succeed _)
    · rw [if_neg free]
      exact some_values

theorem splitEndStrict (bounds : Bounds) (built : Built claimsEnd p)
    (ended : Built claimsEnd separator) :
    Built claimsEnd (Parser.splitEndStrict p separator bounds) :=
  collect bounds (endedBy built ended)

theorem dropping (built : Built claimsEnd p) : Built claimsEnd p.dropping :=
  chain (collect .any built) (List.forall_mem_singleton.mpr (succeed .absent))

end Built
end Descent
