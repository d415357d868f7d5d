/-
**Scripts loaded in part, and one after another.**

A script is a batch of registrations, and loading it is no transaction: the entries are registered one
by one up to the first whose range does not lie in the text, and what has been registered by then stays.
So a script that fails leaves what the entries before the failing one leave alone, and two scripts, of
which the second is not begun if the first fails, leave what their concatenation leaves.

* `Reply.andThen`: two operations on a session, the second of which is not begun if the first fails;
* `Session.load_of_stray`, `Session.load_singleton`, `Session.load_append`: a script with an entry that
  does not lie in the text, a script of one entry, and a script behind another one;
* `Session.load_stops`: what loading a script comes to;
* `Session.load_draft`, `Script.exists_entry`: the edits that a script leaves over a fresh text, and the
  entries from which they come.
-/

import Splice.Proofs.Loading

namespace Splice

/-- The range between the start of the entry and the offset that its reach leads to lies in a text of
the size. -/
def Entry.InText (size : Nat) (entry : Entry) : Prop :=
  0 ≤ min entry.start (entry.start + entry.reach) ∧ max entry.start (entry.start + entry.reach) ≤ size

instance (size : Nat) (entry : Entry) : Decidable (entry.InText size) :=
  inferInstanceAs (Decidable (_ ∧ _))

theorem Span.within_directed_iff {start length : Int} {size : Nat} :
    (directed start length).within size = true ↔
      0 ≤ min start (start + length) ∧ max start (start + length) ≤ size := by
  rw [within_iff]
  exact ⟨fun inside => ⟨inside.1, inside.2.2⟩, fun inside => ⟨inside.1, min_le_max, inside.2⟩⟩

theorem Entry.inText_iff {size : Nat} {entry : Entry} :
    entry.InText size ↔ entry.span.within size = true := Span.within_directed_iff.symm

/-- **Numbers in a row** are places, counted from the first number. -/
theorem Registration.edits_map_eq_mapIdx {α : Type} (order : Int) (asks : α → Registration)
    (items : List α) :
    edits order (items.map asks) = items.mapIdx fun place item => (asks item).edit (order + place) := by
  induction items generalizing order with
  | nil => rfl
  | cons item rest ih =>
    have behind (place : Nat) : order + ((place + 1 : Nat) : Int) = order + 1 + place := by omega
    rw [List.map_cons, edits, ih (order + 1), List.mapIdx_cons, Int.natCast_zero, Int.add_zero]
    simp only [behind]

/-! ### One operation after another -/

namespace Reply

variable {α β γ : Type}

/-- One operation and then another on the session that the first leaves behind. The second is not begun
if the first fails. -/
def andThen (reply : Reply α) (next : Session → Reply β) : Reply β :=
  match reply.result with
  | .error failure => ⟨reply.session, reply.events, .error failure⟩
  | .ok _ => { next reply.session with events := reply.events ++ (next reply.session).events }

theorem andThen_assoc (reply : Reply α) (next : Session → Reply β) (last : Session → Reply γ) :
    (reply.andThen next).andThen last = reply.andThen fun session => (next session).andThen last := by
  obtain ⟨session, events, failure | value⟩ := reply
  · rfl
  · unfold andThen
    dsimp only
    cases (next session).result with
    | error failure => rfl
    | ok value => simp only [List.append_assoc]

end Reply

/-- The entries of a script up to the first whose range does not lie in the text. -/
def Script.upToStray (script : Script) (text : Text) : Script :=
  script.takeWhile fun entry => entry.span.within text.length

namespace Session

section Loads

variable [Objects] [Limits]

theorem loadEntries_cons (session : Session) (entry : Entry) (rest : Script) :
    session.loadEntries (entry :: rest) =
      (session.loadEntry entry).andThen fun after => after.loadEntries rest := by
  rw [loadEntries, Reply.andThen]
  cases (session.loadEntry entry).result with
  | error failure => rfl
  | ok edit => rfl

/-- A script is its entries, one after another, and the report of how many there are. -/
theorem load_eq (session : Session) (script : Script) :
    session.load script = (session.loadEntries script).andThen fun after =>
      ⟨after, [.loaded script.length], .ok script.length⟩ := by
  rw [load, Reply.andThen]
  cases (session.loadEntries script).result with
  | error failure => rfl
  | ok done => rfl

/-- **The entries of two scripts** are those of the first and then those of the second. -/
theorem loadEntries_append (session : Session) (front back : Script) :
    session.loadEntries (front ++ back) =
      (session.loadEntries front).andThen fun after => after.loadEntries back := by
  induction front generalizing session with
  | nil => rfl
  | cons entry rest ih =>
    rw [List.cons_append, loadEntries_cons, loadEntries_cons, Reply.andThen_assoc]
    simp only [ih]

variable {session : Session} {front back script : Script} {entry : Entry}

/-- **A script with an entry that does not lie in the text**, the first such: it is reported, what is in
front of it is registered, and what is behind it is not looked at. -/
theorem load_of_stray (within : ∀ entry ∈ front, entry.span.within session.draft.text.length = true)
    (stray : entry.span.within session.draft.text.length = false) :
    let made := Registration.edits (session.lastOrder + 1)
      (front.map (Entry.registration session.draft.text))
    session.load (front ++ entry :: back) =
      ⟨(session.load front).session, made.map .registered,
        .error (.outside entry.span session.draft.text.length)⟩ := by
  intro made
  have refused : (⟨⟨session.draft.text, session.draft.edits ++ made⟩,
      session.lastOrder + front.length⟩ : Session).loadEntry entry =
      ⟨⟨⟨session.draft.text, session.draft.edits ++ made⟩, session.lastOrder + front.length⟩, [],
        .error (.outside entry.span session.draft.text.length)⟩ := by
    rw [loadEntry_eq, registerSpan_eq, if_neg (Bool.not_eq_true _ ▸ stray)]
  rw [load_of_within within, load_eq, loadEntries_append, loadEntries_of_within within]
  simp only [Reply.andThen, loadEntries_cons]
  rw [refused, List.append_nil]

/-- **A script of one entry.** -/
theorem load_singleton (session : Session) (entry : Entry) :
    let edit := (entry.registration session.draft.text).edit (session.lastOrder + 1)
    session.load [entry] =
      if entry.span.within session.draft.text.length then
        ⟨⟨session.draft.append edit, edit.order⟩, [.registered edit, .loaded 1], .ok 1⟩
      else ⟨session, [], .error (.outside entry.span session.draft.text.length)⟩ := by
  intro edit
  by_cases within : entry.span.within session.draft.text.length = true
  · rw [if_pos within, load_of_within (List.forall_mem_singleton.mpr within)]
    rfl
  · rw [if_neg within]
    exact @load_of_stray _ _ session [] [] entry nofun (Bool.not_eq_true _ ▸ within)

/-- **A script behind another one.** -/
theorem load_append (session : Session) (front back : Script) :
    (∀ failure, (session.load front).result = .error failure →
      session.load (front ++ back) = session.load front) ∧
      ∀ count, (session.load front).result = .ok count →
        (session.load (front ++ back)).session = ((session.load front).session.load back).session ∧
        (session.load (front ++ back)).result =
          ((session.load front).session.load back).result.map (count + ·) := by
  rw [load_eq session front, load_eq session (front ++ back), loadEntries_append, Reply.andThen_assoc]
  obtain ⟨after, events, failure | done⟩ := session.loadEntries front
  · exact ⟨fun _ _ => rfl, nofun⟩
  · refine ⟨nofun, fun count counted => ?_⟩
    obtain rfl : front.length = count := Except.ok.inj counted
    simp only [Reply.andThen, load_eq after back]
    obtain ⟨last, others, failure | done⟩ := after.loadEntries back
    · exact ⟨rfl, rfl⟩
    · exact ⟨rfl, congrArg Except.ok List.length_append⟩

/-- **Loading a script** is a row of registrations, and not all or nothing. In whatever state a session
is, and whichever entries are templates:

* if an entry is the first whose range does not lie in the text, its range is reported, the session is
  left as loading the entries before it leaves it, which succeeds, and the script is not reported as
  loaded;
* if there is none, one edit is appended for each entry, in the order of the script and under the orders
  that follow the one given out last, and the number of entries is reported;
* a script and then another one, if the first is loaded, come to what the two in a row come to: a failure
  in the first ends it all, and otherwise the session and the failure, if any, are those of the second,
  and the numbers of entries add up. -/
theorem load_stops (session : Session) (script : Script) :
    let text := session.draft.text
    let size := text.length
    let reply := session.load script
    (∀ (place : Nat) (entry : Entry), script[place]? = some entry → ¬ entry.InText size →
      (∀ earlier ∈ script.take place, earlier.InText size) →
        let front := session.load (script.take place)
        front.result = .ok place ∧ reply.session = front.session ∧
          reply.result = .error (.outside ⟨min entry.start (entry.start + entry.reach),
            max entry.start (entry.start + entry.reach)⟩ size) ∧
          ∀ count, .loaded count ∉ reply.events) ∧
      ((∀ entry ∈ script, entry.InText size) →
        let made := script.mapIdx fun place entry =>
          (entry.registration text).edit (session.lastOrder + 1 + place)
        reply = ⟨⟨⟨text, session.draft.edits ++ made⟩, session.lastOrder + script.length⟩,
          made.map .registered ++ [.loaded script.length], .ok script.length⟩) ∧
      ∀ others : Script,
        let whole := session.load (script ++ others)
        (∀ failure, reply.result = .error failure → whole = reply) ∧
          ∀ count, reply.result = .ok count →
            whole.session = (reply.session.load others).session ∧
              whole.result = (reply.session.load others).result.map (count + ·) := by
  intro text size reply
  refine ⟨fun place entry found outside inside => ?_, fun inside => ?_, load_append session script⟩
  · obtain ⟨here, rfl⟩ := List.getElem?_eq_some_iff.mp found
    have within : ∀ earlier ∈ script.take place, earlier.span.within size = true :=
      fun earlier member => Entry.inText_iff.mp (inside earlier member)
    have stray : script[place].span.within size = false :=
      Bool.not_eq_true _ ▸ fun within => outside (Entry.inText_iff.mpr within)
    have parts : script = script.take place ++ script[place] :: script.drop (place + 1) := by
      rw [← List.drop_eq_getElem_cons here, List.take_append_drop]
    have stopped : reply = _ := (congrArg session.load parts).trans (load_of_stray within stray)
    have counted : (session.load (script.take place)).result = .ok place := by
      rw [load_of_within within, List.length_take_of_le (Nat.le_of_lt here)]
    rw [stopped]
    refine ⟨counted, rfl, rfl, fun count member => ?_⟩
    obtain ⟨edit, -, same⟩ := List.mem_map.mp member
    cases same
  · have within : ∀ entry ∈ script, entry.span.within size = true :=
      fun entry member => Entry.inText_iff.mp (inside entry member)
    intro made
    have loaded := load_of_within within
    rwa [Registration.edits_map_eq_mapIdx] at loaded

/-- **What a script leaves over a fresh text**, whether it is loaded to its end or not. -/
theorem load_draft (text : Text) (script : Script) :
    ((ofText text).load script).session.draft = (script.upToStray text).draftOver text := by
  have whole : script.upToStray text ++ _ = script := List.takeWhile_append_dropWhile
  have next := List.head?_dropWhile_not (fun entry : Entry => entry.span.within text.length) script
  have within : ∀ entry ∈ script.upToStray text, entry.span.within text.length = true :=
    fun _ member => List.mem_takeWhile_imp (p := fun entry : Entry => entry.span.within text.length) member
  rw [← load_ofText_of_within within]
  cases behind : script.dropWhile fun entry => entry.span.within text.length with
  | nil =>
    rw [behind, List.append_nil] at whole
    rw [whole]
  | cons entry rest =>
    rw [behind] at whole next
    have stopped := congrArg Reply.session (@load_of_stray _ _ (ofText text) _ rest entry within next)
    rw [whole] at stopped
    exact congrArg Session.draft stopped

end Loads

/-- A session over a text of six characters, with an edit registered. -/
def begunSession : Session := ((ofText "abcdef").replace 0 1 "X").session

/-- A template and a removal, read backwards, and then a template whose range lies across the end of
the text, with an entry behind it. -/
def strayScript : Script :=
  [⟨2, some 2, none, "<\x7boriginal\x7d>", true⟩, ⟨5, none, some 4, "", false⟩,
    ⟨7, some (-2), none, "\x7boriginal\x7d", true⟩, ⟨0, none, none, "!", false⟩]

theorem load_stops_stray :
    begunSession.lastOrder = 1 ∧
      (∀ earlier ∈ strayScript.take 2, earlier.InText 6) ∧
      (¬ Entry.InText 6 ⟨7, some (-2), none, "\x7boriginal\x7d", true⟩) ∧
      let front := begunSession.load (strayScript.take 2)
      let reply := begunSession.load strayScript
      front.result = .ok 2 ∧ reply.session = front.session ∧
        reply.result = .error (.outside ⟨5, 7⟩ 6) ∧ (∀ count, .loaded count ∉ reply.events) ∧
        reply.session.draft.edits = [⟨⟨0, 1⟩, 1, .fixed "X"⟩,
          ⟨⟨2, 4⟩, 2, .template "<\x7boriginal\x7d>" "cd"⟩, ⟨⟨4, 5⟩, 3, .fixed ""⟩] := by
  have inside : ∀ earlier ∈ strayScript.take 2, earlier.InText 6 := by decide
  have outside : ¬ Entry.InText 6 ⟨7, some (-2), none, "\x7boriginal\x7d", true⟩ := by decide
  obtain ⟨counted, left, result, silent⟩ :=
    (load_stops begunSession strayScript).1 2 _ rfl outside inside
  have registered := (load_stops begunSession (strayScript.take 2)).2.1 inside
  refine ⟨rfl, inside, outside, counted, left, result, silent, ?_⟩
  rw [left, registered]
  rfl

end Session

/-! ### Edits and their entries -/

namespace Script

variable [Objects] [Limits]

/-- The entry from which an edit comes that a script has left over a fresh text: orders count the
entries from one on. -/
def entryOf? (script : Script) (edit : Edit) : Option Entry := script[(edit.order - 1).toNat]?

/-- **Every edit comes from an entry**, which it registers. -/
theorem exists_entry {script : Script} {text : Text} {edit : Edit}
    (member : edit ∈ ((Session.ofText text).load script).session.draft.edits) :
    ∃ entry, script.entryOf? edit = some entry ∧
      edit = (entry.registration text).edit edit.order := by
  rw [Session.load_draft, draftOver, Registration.edits_map_eq_mapIdx] at member
  obtain ⟨place, inside, rfl⟩ := List.mem_mapIdx.mp member
  have front : script.upToStray text <+: script := List.takeWhile_prefix _
  have count : ((1 : Int) + place - 1).toNat = place := by omega
  exact ⟨_, (congrArg (script[·]?) count).trans (List.prefix_iff_getElem?.mp front place inside), rfl⟩

/-- The template of an edit that a script has left over a fresh text, if it comes from one. -/
def templateOf? (script : Script) (edit : Edit) : Option Text :=
  ((script.entryOf? edit).filter Entry.isTemplate).map Entry.text

section Asking

variable {script : Script} {text : Text} {edit : Edit}
  (member : edit ∈ ((Session.ofText text).load script).session.draft.edits)

include member

/-- **A template answers** with its own expansion, over the text of its own range. -/
theorem ask_of_template {source : Text} (origin : script.templateOf? edit = some source)
    (context : Context) (history : History) :
    edit.replacement.ask context history =
      Replacement.expanded source (text.slice edit.start edit.stop) context := by
  obtain ⟨entry, found, made⟩ := exists_entry member
  rw [templateOf?, found, Option.map_eq_some_iff] at origin
  obtain ⟨other, kind, rfl⟩ := origin
  obtain ⟨same, isTemplate⟩ := Option.filter_eq_some_iff.mp kind
  obtain rfl := Option.some.inj same
  rw [made]
  unfold Registration.edit Entry.registration
  simp only [isTemplate, if_true]
  rfl

/-- **An edit that is no template** always has the same text. -/
theorem ask_of_no_template (origin : script.templateOf? edit = none) :
    ∃ literal, ∀ context history, edit.replacement.ask context history = .ok literal := by
  obtain ⟨entry, found, made⟩ := exists_entry member
  rw [templateOf?, found, Option.map_eq_none_iff, Option.filter_eq_none_iff] at origin
  have literal : entry.isTemplate = false := Bool.not_eq_true _ ▸ origin entry rfl
  refine ⟨entry.text, fun context history => ?_⟩
  rw [made]
  unfold Registration.edit Entry.registration
  simp only [literal, Bool.false_eq_true, if_false]
  rfl

end Asking

end Script

end Splice
