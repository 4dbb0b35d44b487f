import DirLock.Proofs.Yaml.Member
import DirLock.Yaml.Document

/-!
# The parts of a mapping

The tokens of a mapping of scalars make up a document whose parts are the mapping's start, the name and
the value of each entry, and its end.
-/

namespace DirLock.Yaml

/-- An entry of a mapping of scalars, and how its value is written. -/
structure Entry where
  name : List Char
  value : List Char
  style : ScalarStyle
  deriving DecidableEq, Repr

namespace Entry

/-- The kinds of the tokens of the entry. -/
def tokens (entry : Entry) : List TokenKind := Lexer.memberKinds entry.name entry.value entry.style

/-- The nodes of the entry: its name and its value. -/
def nodes (entry : Entry) : List ScalarNode := [⟨none, entry.name, .plain⟩, ⟨none, entry.value, entry.style⟩]

end Entry

/-- The kinds of the tokens of a text that is a mapping of these entries. -/
def mappingTokens (entries : List Entry) : List TokenKind :=
  .streamStart :: .blockMappingStart :: (entries.flatMap Entry.tokens ++ [.blockEnd, .streamEnd])

/-- The parts of a document that is a mapping of these entries. -/
def mappingParts (entries : List Entry) : List Part :=
  .mappingStart :: ((entries.flatMap Entry.nodes).map .scalar ++ [.mappingEnd])

namespace Grammar

/-- The automaton goes on from the first state to the second in so many steps, and events of these kinds
are formed meanwhile. -/
def Forms (steps : Nat) (g : Grammar) (kinds : List EventKind) (g' : Grammar) : Prop :=
  ∃ events : List Event, events.map Event.kind = kinds ∧
    ∀ fuel done, run (fuel + steps) g done = run fuel g' (events.reverse ++ done)

variable {g g' g'' : Grammar} {m n : Nat} {kinds kinds' : List EventKind} {event : Event}
  {tokens rest : List Token} {began : List Mark} {handles : List (List Char × List Char)} {entry : Entry}
  {entries : List Entry}

theorem Forms.refl (g : Grammar) : Forms 0 g [] g := ⟨[], rfl, fun _ _ => rfl⟩

theorem Forms.trans (h : Forms m g kinds g') (h' : Forms n g' kinds' g'') :
    Forms (n + m) g (kinds ++ kinds') g'' := by
  obtain ⟨events, rfl, hrun⟩ := h
  obtain ⟨events', rfl, hrun'⟩ := h'
  refine ⟨events ++ events', List.map_append, fun fuel done => ?_⟩
  rw [← Nat.add_assoc, hrun, hrun', List.reverse_append, List.append_assoc]

theorem forms_step (hexpecting : g.expecting ≠ .nothing) (hstep : g.step = .ok (event, g')) :
    Forms 1 g [event.kind] g' := by
  refine ⟨[event], rfl, fun fuel done => ?_⟩
  rw [run, if_neg hexpecting, hstep]
  rfl

/-- The state inside the one mapping of a document. -/
def inMapping (expecting : Expecting) (began : List Mark) (tokens : List Token)
    (handles : List (List Char × List Char)) : Grammar :=
  ⟨expecting, [.documentEnd], began, tokens, none, handles⟩

theorem node_scalar {token : Token} {value : List Char} {style : ScalarStyle}
    (htokens : g.tokens = token :: rest) (hkind : token.kind = .scalar value style) (block flat : Bool) :
    g.node block flat = .ok (⟨.scalar none ⟨none, value, style⟩, token.start⟩, g.skip.pop) := by
  simp [node, peek, properties, fullTag, htokens, hkind, Bind.bind, Except.bind, Pure.pure, Except.pure]

theorem blockMappingKey_key {key name : Token} {text : List Char} (hkey : key.kind = .key)
    (hname : name.kind = .scalar text .plain) (expecting : Expecting) :
    (inMapping expecting began (key :: name :: rest) handles).blockMappingKey =
      .ok (⟨.scalar none ⟨none, text, .plain⟩, name.start⟩, inMapping .blockMappingValue began rest handles) := by
  have hnode := @node_scalar ((inMapping expecting began (key :: name :: rest) handles).skip.push
    .blockMappingValue) rest name text .plain rfl hname true true
  simp only [inMapping, blockMappingKey, peek, hkey, hname, endsBlockPart, skip, Bind.bind, Except.bind,
    List.drop_succ_cons, List.drop_zero] at hnode ⊢
  rw [hnode]
  rfl

theorem blockMappingValue_value {colon value : Token} {text : List Char} {style : ScalarStyle}
    (hcolon : colon.kind = .value) (hvalue : value.kind = .scalar text style) :
    (inMapping .blockMappingValue began (colon :: value :: rest) handles).step =
      .ok (⟨.scalar none ⟨none, text, style⟩, value.start⟩, inMapping .blockMappingKey began rest handles) := by
  have hnode := @node_scalar ((inMapping .blockMappingValue began (colon :: value :: rest)
    handles).skip.push .blockMappingKey) rest value text style rfl hvalue true true
  simp only [step, inMapping, blockMappingValue, peek, hcolon, hvalue, endsBlockPart, skip, Bind.bind,
    Except.bind, List.drop_succ_cons, List.drop_zero] at hnode ⊢
  rw [hnode]
  rfl

theorem forms_entry (hexpecting : g.expecting ≠ .nothing) {expecting : Expecting}
    (hstep : g.step = (inMapping expecting began (tokens ++ rest) handles).blockMappingKey)
    (htokens : tokens.map Token.kind = entry.tokens) :
    Forms 2 g (entry.nodes.map (.scalar none)) (inMapping .blockMappingKey began rest handles) := by
  rcases tokens with _ | ⟨key, _ | ⟨name, _ | ⟨colon, _ | ⟨value, _ | ⟨_, _⟩⟩⟩⟩⟩ <;>
    simp [Entry.tokens, Lexer.memberKinds] at htokens
  obtain ⟨hkey, hname, hcolon, hvalue⟩ := htokens
  have hfirst := hstep.trans (blockMappingKey_key hkey hname expecting)
  have hsecond := @blockMappingValue_value rest began handles colon value entry.value entry.style hcolon hvalue
  exact (forms_step hexpecting hfirst).trans (forms_step (by simp [inMapping]) hsecond)

theorem forms_entries (htokens : tokens.map Token.kind = entries.flatMap Entry.tokens) :
    Forms (2 * entries.length) (inMapping .blockMappingKey began (tokens ++ rest) handles)
      ((entries.flatMap Entry.nodes).map (.scalar none)) (inMapping .blockMappingKey began rest handles) := by
  induction entries generalizing tokens with
  | nil =>
    obtain rfl : tokens = [] := List.map_eq_nil_iff.1 htokens
    exact .refl _
  | cons entry entries ih =>
    rw [List.flatMap_cons] at htokens
    obtain ⟨first, others, rfl, hfirst, hothers⟩ := List.map_eq_append_iff.1 htokens
    rw [List.flatMap_cons, List.map_append, List.append_assoc, List.length_cons, Nat.mul_succ]
    exact (forms_entry (by simp [inMapping]) rfl hfirst).trans (ih hothers)

theorem forms_opening {start opened : Token} (hopened : opened.kind = .blockMappingStart) :
    Forms 3 (ofTokens ⟨start :: opened :: rest, none⟩) [.streamStart, .documentStart, .mappingStart none]
      ⟨.blockMappingFirst, [.documentEnd], [], opened :: rest, none, defaultHandles⟩ := by
  have hstart : (ofTokens ⟨start :: opened :: rest, none⟩).step =
      .ok (⟨.streamStart, start.start⟩, ⟨.bareDocument, [], [], opened :: rest, none, []⟩) := rfl
  have hdocument : (⟨.bareDocument, [], [], opened :: rest, none, []⟩ : Grammar).step =
      .ok (⟨.documentStart, opened.start⟩,
        ⟨.blockNode, [.documentEnd], [], opened :: rest, none, defaultHandles⟩) := by
    simp [step, documentStart, peek, hopened, directives, push, expect, defaultHandles, Bind.bind, Except.bind,
      Pure.pure, Except.pure]
  have hmapping : (⟨.blockNode, [.documentEnd], [], opened :: rest, none, defaultHandles⟩ : Grammar).step =
      .ok (⟨.mappingStart none, opened.start⟩,
        ⟨.blockMappingFirst, [.documentEnd], [], opened :: rest, none, defaultHandles⟩) := by
    simp [step, node, properties, peek, hopened, fullTag, expect, Bind.bind, Except.bind, Pure.pure, Except.pure]
  exact ((forms_step (by simp [ofTokens]) hstart).trans (forms_step (by simp) hdocument)).trans
    (forms_step (by simp) hmapping)

theorem forms_closing {mark : Mark} {closed ended : Token} (hclosed : closed.kind = .blockEnd)
    (hended : ended.kind = .streamEnd) :
    Forms 3 (inMapping .blockMappingKey [mark] [closed, ended] handles)
      [.mappingEnd, .documentEnd, .streamEnd] ⟨.nothing, [], [], [], none, []⟩ := by
  have hmapping : (inMapping .blockMappingKey [mark] [closed, ended] handles).step =
      .ok (⟨.mappingEnd, closed.start⟩, ⟨.documentEnd, [], [], [ended], none, handles⟩) := by
    simp [step, inMapping, blockMappingKey, peek, hclosed, skip, close, pop, Bind.bind, Except.bind, Pure.pure,
      Except.pure]
  have hdocument : (⟨.documentEnd, [], [], [ended], none, handles⟩ : Grammar).step =
      .ok (⟨.documentEnd, ended.start⟩, ⟨.document, [], [], [ended], none, []⟩) := by
    simp [step, documentEnd, peek, hended, expect, Bind.bind, Except.bind, Pure.pure, Except.pure]
  have hstream : (⟨.document, [], [], [ended], none, []⟩ : Grammar).step =
      .ok (⟨.streamEnd, ended.start⟩, ⟨.nothing, [], [], [], none, []⟩) := by
    simp [step, documentStart, skipDocumentEnds, peek, hended, skip, expect, Bind.bind, Except.bind, Pure.pure,
      Except.pure]
  exact ((forms_step (by simp [inMapping]) hmapping).trans (forms_step (by simp) hdocument)).trans
    (forms_step (by simp) hstream)

def mappingEvents (entries : List Entry) : List EventKind :=
  [.streamStart, .documentStart, .mappingStart none] ++ (entries.flatMap Entry.nodes).map (.scalar none) ++
    [.mappingEnd, .documentEnd, .streamEnd]

theorem length_tokens (entries : List Entry) :
    (entries.flatMap Entry.tokens).length = 4 * entries.length := by
  induction entries with
  | nil => rfl
  | cons entry entries ih =>
    rw [List.flatMap_cons, List.length_append, ih, List.length_cons]
    simp only [Entry.tokens, Lexer.memberKinds, List.length_cons, List.length_nil]
    omega

theorem ofTokens_mapping (hne : entries ≠ []) (htokens : tokens.map Token.kind = mappingTokens entries) :
    ∃ events, Event.ofTokens ⟨tokens, none⟩ = ⟨events, none⟩ ∧
      events.map Event.kind = mappingEvents entries := by
  have hlength : tokens.length = 4 * entries.length + 4 := by
    rw [← List.length_map Token.kind, htokens]
    simp only [mappingTokens, List.length_cons, List.length_append, length_tokens, List.length_nil]
  obtain ⟨entry, others, rfl⟩ := List.exists_cons_of_ne_nil hne
  obtain ⟨start, _, rfl, hstart, htokens⟩ := List.map_eq_cons_iff.1 htokens
  obtain ⟨opened, _, rfl, hopened, htokens⟩ := List.map_eq_cons_iff.1 htokens
  obtain ⟨members, _, rfl, hmembers, htokens⟩ := List.map_eq_append_iff.1 htokens
  obtain ⟨closed, _, rfl, hclosed, htokens⟩ := List.map_eq_cons_iff.1 htokens
  obtain ⟨ended, _, rfl, hended, htokens⟩ := List.map_eq_cons_iff.1 htokens
  obtain rfl := List.map_eq_nil_iff.1 htokens
  rw [List.flatMap_cons] at hmembers
  obtain ⟨first, members, rfl, hfirst, hmembers⟩ := List.map_eq_append_iff.1 hmembers
  -- The first entry is read where the mapping opens, and the others behind it.
  have hentry : Forms 2 ⟨.blockMappingFirst, [.documentEnd], [],
      opened :: (first ++ members ++ [closed, ended]), none, defaultHandles⟩ (entry.nodes.map (.scalar none))
      (inMapping .blockMappingKey [opened.start] (members ++ [closed, ended]) defaultHandles) := by
    rw [List.append_assoc]
    exact forms_entry (by simp) rfl hfirst
  have hothers := @forms_entries members [closed, ended] [opened.start] defaultHandles others hmembers
  obtain ⟨events, hevents, hrun⟩ := ((forms_opening hopened).trans hentry).trans
    (hothers.trans (forms_closing hclosed hended))
  refine ⟨events, ?_, ?_⟩
  · obtain ⟨fuel, hfuel⟩ : ∃ fuel, 3 * (start :: opened :: (first ++ members ++ [closed, ended])).length + 8 =
        fuel + 1 + (3 + 2 * others.length + (2 + 3)) := by
      refine ⟨3 * (start :: opened :: (first ++ members ++ [closed, ended])).length + 8 -
        (1 + (3 + 2 * others.length + (2 + 3))), ?_⟩
      simp only [List.length_cons] at hlength ⊢
      omega
    rw [Event.ofTokens, hfuel, hrun]
    simp [run]
  · rw [hevents, mappingEvents, List.flatMap_cons, List.map_append]
    simp

end Grammar

namespace Document

variable {events : List Event} {draft : Draft}

theorem collect_scalars {nodes : List ScalarNode} {rest : List Event}
    (hevents : events.map Event.kind = nodes.map (.scalar none)) : ∃ items : List Item,
    items.map Item.part = nodes.map .scalar ∧
      collect none draft (events ++ rest) =
        collect none { draft with items := items.reverse ++ draft.items } rest := by
  induction events generalizing nodes draft with
  | nil =>
    obtain rfl : nodes = [] := List.map_eq_nil_iff.1 hevents.symm
    exact ⟨[], rfl, rfl⟩
  | cons event events ih =>
    obtain ⟨node, nodes, rfl⟩ : ∃ node others, nodes = node :: others := by
      cases nodes with
      | nil => exact absurd hevents (by simp)
      | cons node others => exact ⟨node, others, rfl⟩
    rw [List.map_cons, List.map_cons, List.cons.injEq] at hevents
    obtain ⟨items, hitems, hcollect⟩ := @ih (draft.add (.scalar node) event.mark) nodes hevents.2
    refine ⟨⟨.scalar node, event.mark⟩ :: items, by rw [List.map_cons, hitems, List.map_cons], ?_⟩
    have hstep : collect none draft (event :: (events ++ rest)) =
        collect none (draft.add (.scalar node) event.mark) (events ++ rest) := by
      simp [collect, hevents.1, Draft.anchor]
    rw [List.cons_append, hstep, hcollect]
    simp [Draft.add]

theorem collect_mapping {entries : List Entry}
    (hevents : events.map Event.kind = Grammar.mappingEvents entries) : ∃ items,
    items.map Item.part = mappingParts entries ∧
      collect none Draft.empty events = (⟨items, [], none⟩, false) := by
  rw [Grammar.mappingEvents, List.append_assoc] at hevents
  obtain ⟨before, _, rfl, hbefore, hevents⟩ := List.map_eq_append_iff.1 hevents
  obtain ⟨scalars, after, rfl, hscalars, hafter⟩ := List.map_eq_append_iff.1 hevents
  rcases before with _ | ⟨start, _ | ⟨opened, _ | ⟨mapping, _ | ⟨_, _⟩⟩⟩⟩ <;> simp at hbefore
  rcases after with _ | ⟨closed, _ | ⟨ended, _ | ⟨stream, _ | ⟨_, _⟩⟩⟩⟩ <;> simp at hafter
  obtain ⟨hstart, hopened, hmapping⟩ := hbefore
  obtain ⟨hclosed, hended, hstream⟩ := hafter
  obtain ⟨items, hitems, hcollect⟩ := @collect_scalars scalars (Draft.empty.add .mappingStart mapping.mark)
    (entries.flatMap Entry.nodes) [closed, ended, stream] hscalars
  refine ⟨⟨.mappingStart, mapping.mark⟩ :: (items ++ [⟨.mappingEnd, closed.mark⟩]), ?_, ?_⟩
  · rw [List.map_cons, List.map_append, hitems]
    rfl
  · have hdraft : Draft.empty.anchor none = Draft.empty := rfl
    have hopen : collect none Draft.empty ([start, opened, mapping] ++ (scalars ++ [closed, ended, stream])) =
        collect none (Draft.empty.add .mappingStart mapping.mark) (scalars ++ [closed, ended, stream]) := by
      simp [collect, hstart, hopened, hmapping, hdraft]
    rw [hopen, hcollect]
    simp [collect, hclosed, hended, hstream, Draft.finish, Draft.add, Draft.empty]

end Document

end DirLock.Yaml
