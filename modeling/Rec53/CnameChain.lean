import Rec53.StateMachine
import Mathlib.Data.List.Chain

/-!
# The CNAME chain of a reply

`followCNAME` takes the first CNAME record of the answer section, whoever owns it,
and appends it to the chain that `buildFinalResponse` puts in front of the answer.
The chain of a reply is a connected path exactly when each record that was
followed was owned by the name then in force.
-/

namespace CnameChain

open DnsMessage Platform DnsCache LocalConfig StateHandlers StateMachine

/-- The records lead from `original` step by step. -/
structure Linked (original : String) (chain : List RR) : Prop where
  first : ∀ c ∈ chain.head?, SameName c.name original
  links : chain.IsChain fun c d => SameName c.target d.name

/-- A path from the name asked to the name the final answer is for. -/
structure ConnectedPath (original : String) (chain : List RR) (final : String) : Prop
    extends Linked original chain where
  last : ∀ c ∈ chain.getLast?, SameName c.target final

/-- The record the next visit follows is owned by the name in force. -/
def HopOwned (o : Outcome) : Prop :=
  ∀ r cname, o = .next r → r.hop = some cname → SameName cname.name r.qname

lemma linked_nil (original : String) : Linked original [] :=
  ⟨by simp, .nil⟩

/-- One more record keeps the path exactly when the path so far leads to its owner. -/
lemma linked_snoc {r : Resolution} {cname : RR} :
    Linked r.originalQuestion.name (r.cnameChain ++ [cname]) ↔
      Linked r.originalQuestion.name r.cnameChain ∧ SameName cname.name r.expected := by
  cases last : r.cnameChain.getLast? with
  | none =>
    have empty : r.cnameChain = [] := List.getLast?_eq_none_iff.mp last
    simp only [Resolution.expected, empty, List.nil_append]
    constructor
    · intro linked
      exact ⟨linked_nil _, linked.first cname rfl⟩
    · rintro ⟨_, owned⟩
      refine ⟨?_, .singleton _⟩
      intro c hc
      cases hc
      exact owned
  | some prior =>
    have nonempty : r.cnameChain ≠ [] := by
      intro empty
      rw [empty] at last
      cases last
    have head : (r.cnameChain ++ [cname]).head? = r.cnameChain.head? :=
      List.head?_append_of_ne_nil _ nonempty
    simp only [Resolution.expected, last]
    constructor
    · intro linked
      obtain ⟨links, _, join⟩ := List.isChain_append.mp linked.links
      refine ⟨⟨fun c hc => linked.first c (head ▸ hc), links⟩, ?_⟩
      exact (join prior last cname rfl).symm
    · rintro ⟨linked, owned⟩
      refine ⟨fun c hc => linked.first c (head ▸ hc), ?_⟩
      refine List.isChain_append.mpr ⟨linked.links, .singleton _, ?_⟩
      intro c hc d hd
      rw [last] at hc
      cases hc
      cases hd
      exact owned.symm

/-- What the run lemma keeps about the state. -/
def Follows (original : String) (o : Outcome) : Prop :=
  Tracks o ∧ o.resolution.originalQuestion.name = original

lemma visit_originalQuestion (env : Env) (o : Outcome) (v : Visit) :
    (visit env o v).resolution.originalQuestion = o.resolution.originalQuestion := by
  by_cases stays : ∀ r, o = .next r → r.hop = none
  · exact (visit_sameQuestion env o v stays).original
  · push Not at stays
    obtain ⟨r, rfl, hops⟩ := stays
    obtain ⟨cname, hop⟩ := Option.ne_none_iff_exists'.mp hops
    rw [(visit_of_hop env v hop).2.2, (goto_sameQuestion _ _).original]
    rfl

lemma visit_follows (env : Env) {original : String} (o : Outcome) (v : Visit)
    (follows : Follows original o) : Follows original (visit env o v) :=
  ⟨visit_tracks env o v follows.1, by rw [visit_originalQuestion]; exact follows.2⟩

/-- One visit keeps the chain linked exactly when the record it follows is owned. -/
lemma visit_linked_iff (env : Env) {original : String} (o : Outcome) (v : Visit)
    (follows : Follows original o) :
    Linked original (visit env o v).resolution.cnameChain ↔
      Linked original o.resolution.cnameChain ∧ HopOwned o := by
  obtain ⟨tracks, rfl⟩ := follows
  by_cases stays : ∀ r, o = .next r → r.hop = none
  · have owned : HopOwned o := by
      intro r cname hr hop
      rw [stays r hr] at hop
      cases hop
    rw [(visit_sameQuestion env o v stays).chain]
    exact ⟨fun linked => ⟨linked, owned⟩, fun both => both.1⟩
  · push Not at stays
    obtain ⟨r, rfl, hops⟩ := stays
    obtain ⟨cname, hop⟩ := Option.ne_none_iff_exists'.mp hops
    have owned : HopOwned (.next r) ↔ SameName cname.name r.expected := by
      rw [← (show r.qname = r.expected from tracks.name)]
      constructor
      · intro h
        exact h r cname rfl hop
      · intro same r' cname' hr hop'
        cases hr
        rw [hop] at hop'
        cases hop'
        exact same
    rw [(visit_of_hop env v hop).2.2, (goto_sameQuestion _ _).chain, owned]
    exact linked_snoc

/-- For every reply that ends at RETURN_RESP, under every behaviour of caches and
servers: the answer section starts with the followed CNAME records, and they are a
connected path from the name asked to the name the final answer is for exactly when
each of them was owned by the name in force when it was followed. -/
theorem chain_connected_iff (env : Env) (request : Msg) (depth : Nat) (visits : List Visit)
    (r : Resolution) (reply : Msg)
    (ended : resolve env request depth visits = .done r (.ok reply))
    (here : r.st = .returnResp) :
    reply.answer = r.cnameChain ++ r.response.answer ∧
      (ConnectedPath request.q0.name r.cnameChain r.qname ↔
        StepRuns.Along (visit env) (fun o _ => HopOwned o) (.next (start request depth))
          visits) := by
  have reply_eq := resolve_finished env request depth visits r reply ended here
  refine ⟨by rw [reply_eq]; rfl, ?_⟩
  have linked_iff : Linked request.q0.name r.cnameChain ↔
      StepRuns.Along (visit env) (fun o _ => HopOwned o) (.next (start request depth)) visits := by
    have exact_run := StepRuns.run_iff_along (visit env)
      (P := Follows request.q0.name) (Q := fun o => Linked request.q0.name o.resolution.cnameChain)
      (visit_follows env) (visit_linked_iff env)
      (s := .next (start request depth)) ⟨start_tracks request depth, rfl⟩ visits
    change Linked _ (resolve env request depth visits).resolution.cnameChain ↔ _ at exact_run
    rw [ended] at exact_run
    exact exact_run.trans ⟨fun both => both.2, fun along => ⟨linked_nil _, along⟩⟩
  -- the last target is always the current name, since only a hop changes it
  have tracks := resolve_tracks env request depth visits
  rw [ended] at tracks
  have current : r.qname = r.expected := tracks.name
  constructor
  · intro path
    exact linked_iff.mp path.toLinked
  · intro along
    refine ⟨linked_iff.mpr along, ?_⟩
    intro c last
    rw [current, Resolution.expected, show r.cnameChain.getLast? = some c from last]

/-- A cached answer for `a.` that lists `b. CNAME c.` before `a. CNAME b.`. -/
def unorderedAnswer : World :=
  let answer : List RR := [⟨"b.", classINET, 60, .cname "c."⟩, ⟨"a.", classINET, 60, .cname "b."⟩]
  let final : List RR := [⟨"c.", classINET, 60, .a "192.0.2.1"⟩]
  setCacheCopyByType plainLib
    (setCacheCopyByType plainLib (World.initial none 1 0) "a." typeA { answer := answer } 60)
    "c." typeA { answer := final } 60

theorem unordered_answer_chain_iff :
    ∃ r reply, resolve plainEnv (newQuery 7 "a." typeA) 0
        (List.replicate 8 ⟨unorderedAnswer, .idle⟩) = .done r (.ok reply) ∧
      reply.answer = r.cnameChain ++ r.response.answer ∧
      (ConnectedPath "a." r.cnameChain r.qname ↔
        StepRuns.Along (visit plainEnv) (fun o _ => HopOwned o)
          (.next (start (newQuery 7 "a." typeA) 0))
          (List.replicate 8 ⟨unorderedAnswer, .idle⟩)) :=
  ⟨_, _, rfl, chain_connected_iff plainEnv (newQuery 7 "a." typeA) 0
    (List.replicate 8 ⟨unorderedAnswer, .idle⟩) _ _ rfl rfl⟩

theorem unordered_answer_breaks_chain :
    ∃ r reply, resolve plainEnv (newQuery 7 "a." typeA) 0
        (List.replicate 8 ⟨unorderedAnswer, .idle⟩) = .done r (.ok reply) ∧
      r.st = .returnResp ∧ r.cnameChain ≠ [] ∧
      ¬ ConnectedPath "a." r.cnameChain r.qname := by
  refine ⟨_, _, rfl, rfl, by decide, ?_⟩
  intro path
  exact absurd (path.first _ rfl) (by decide)

end CnameChain
