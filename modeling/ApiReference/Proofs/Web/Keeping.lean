import ApiReference.Web.Client
import Mathlib.Data.Finset.Card
import Mathlib.Data.Finset.Dedup

/-!
# Answers that are kept

A client that keeps answers asks for an address until it has been told what is there, or that
nothing is, and never again after that. Nothing else is kept. All of this holds over any store that
forgets nothing as long as it has room. Main statement: `get_settles`.
-/

namespace ApiReference.Web
variable {σ κ : Type}

/-- The states of a store, with the answers that have been put into it, the last one first. -/
inductive Store.Holds (store : Store κ) : List Kept → κ → Prop where
  | empty : Holds store [] store.empty
  | find {entries : List Kept} {kept : κ} (url : Text) (h : Holds store entries kept) :
      Holds store entries (store.find url kept).2
  | insert {entries : List Kept} {kept : κ} (e : Kept) (h : Holds store entries kept) :
      Holds store (e :: entries) (store.insert e kept)

/-- The body that was put in last for an address. -/
def lastBody? (entries : List Kept) (url : Text) : Option (Option Text) :=
  (entries.find? fun e => e.url == url).map Kept.body

/-- As long as the answers put in are for fewer addresses than the capacity, the store is a map:
nothing has been driven out, and nothing has become too old. -/
def Store.IsMapBelow (store : Store κ) (capacity : Nat) : Prop :=
  ∀ entries kept, store.Holds entries kept → (entries.map Kept.url).toFinset.card < capacity →
    ∀ url, (store.find url kept).1 = lastBody? entries url

theorem Store.holds_ofList {entries kept : List Kept} (h : Store.ofList.Holds entries kept) :
    kept = entries := by
  induction h with
  | empty => rfl
  | find url h ih => exact ih
  | insert e h ih => exact congrArg (e :: ·) ih

theorem Store.isMapBelow_ofList (capacity : Nat) : Store.ofList.IsMapBelow capacity := by
  intro entries kept h _ url
  rw [Store.holds_ofList h]
  rfl

theorem lastBody?_cons_self (e : Kept) (entries : List Kept) :
    lastBody? (e :: entries) e.url = some e.body := by
  simp [lastBody?]

theorem lastBody?_cons_of_ne {e : Kept} (entries : List Kept) {url : Text} (other : e.url ≠ url) :
    lastBody? (e :: entries) url = lastBody? entries url := by
  simp [lastBody?, other]

/-- What a client makes of a reply. -/
inductive Reply.Means (url : Text) : Reply → Except Problem (Option Text) → Prop where
  | missing (body : Except Text Text) : Means url (.answered 404 body) (.ok none)
  | text {status : Nat} (t : Text) (success : 200 ≤ status ∧ status < 300) :
      Means url (.answered status (.ok t)) (.ok (some t))
  | unsent (reason : Text) : Means url (.unsent reason)
      (.error (.request ("GET ".toList ++ url ++ ": ".toList ++ reason)))
  | unreadable {status : Nat} (reason : Text) (success : 200 ≤ status ∧ status < 300) :
      Means url (.answered status (.error reason))
        (.error (.decoding ("GET ".toList ++ url ++ ": ".toList ++ reason)))
  | refused {status : Nat} (body : Except Text Text) (found : status ≠ 404)
      (failure : ¬ (200 ≤ status ∧ status < 300)) : Means url (.answered status body)
        (.error (.request ("GET ".toList ++ url ++ " returned ".toList ++ statusText status)))

theorem Reply.means_content (url : Text) (reply : Reply) : reply.Means url (reply.content url) := by
  cases reply with
  | unsent reason => exact .unsent reason
  | answered status body =>
      simp only [content]
      split_ifs with missing success
      · rw [missing]
        exact .missing body
      · have range : 200 ≤ status ∧ status < 300 := by simpa [isSuccess] using success
        cases body with
        | ok t => exact .text t range
        | error reason => exact .unreadable reason range
      · exact .refused body missing (by simpa [isSuccess] using success)

section Request
variable {store : Store κ} {server : Server σ} {version : Text} {request : Request}
  {c : Connection σ κ}

theorem getThrough_of_found {body : Option Text}
    (found : (store.find request.url c.kept).1 = some body) :
    getThrough store server version request c =
      (.ok body, { c with kept := (store.find request.url c.kept).2 }) := by
  simp only [getThrough, found]

theorem getThrough_of_told {body : Option Text}
    (absent : (store.find request.url c.kept).1 = none)
    (told : (server request c.server).1.content request.url = .ok body) :
    getThrough store server version request c =
      (.ok body, ⟨(server request c.server).2,
        store.insert ⟨request.url, body, Package.freshness version⟩
          (store.find request.url c.kept).2⟩) := by
  simp only [getThrough, absent, told]

theorem getThrough_of_failed {e : Problem} (absent : (store.find request.url c.kept).1 = none)
    (failed : (server request c.server).1.content request.url = .error e) :
    getThrough store server version request c =
      (.error e, ⟨(server request c.server).2, (store.find request.url c.kept).2⟩) := by
  simp only [getThrough, absent, failed]

/-- A request that fails leaves in the store what the look-up has left there. -/
theorem kept_of_error {e : Problem}
    (failed : (getThrough store server version request c).1 = .error e) :
    (getThrough store server version request c).2.kept = (store.find request.url c.kept).2 := by
  cases found : (store.find request.url c.kept).1 with
  | some body => rw [getThrough_of_found found]
  | none =>
      cases said : (server request c.server).1.content request.url with
      | ok body =>
          rw [getThrough_of_told found said] at failed
          cases failed
      | error e => rw [getThrough_of_failed found said]

end Request

structure Call where
  version : Text
  request : Request

def Call.url (call : Call) : Text := call.request.url

/-- A call with its answer, and with what went over the network for it. -/
structure Visit where
  call : Call
  answer : Except Problem (Option Text)
  exchanges : List (Request × Reply)

def Visit.url (v : Visit) : Text := v.call.url

/-- The server that writes down what it is asked and what it replies. -/
def logged (server : Server σ) : Server (σ × List (Request × Reply)) := fun request state =>
  let asked := server request state.1
  (asked.1, asked.2, state.2 ++ [(request, asked.1)])

namespace Store
variable (store : Store κ) (server : Server σ)

def connect (state : σ) : Connection σ κ := ⟨state, store.empty⟩

def visit (call : Call) (c : Connection σ κ) : Visit × Connection σ κ :=
  let got := getThrough store (logged server) call.version call.request ⟨(c.server, []), c.kept⟩
  (⟨call, got.1, got.2.server.2⟩, ⟨got.2.server.1, got.2.kept⟩)

def visits : List Call → Connection σ κ → List Visit
  | [], _ => []
  | call :: calls, c =>
    (store.visit server call c).1 :: visits calls (store.visit server call c).2

variable {store}

theorem visit_of_found {call : Call} {c : Connection σ κ} {body : Option Text}
    (found : (store.find call.url c.kept).1 = some body) :
    store.visit server call c =
      (⟨call, .ok body, []⟩, { c with kept := (store.find call.url c.kept).2 }) := by
  rw [Call.url] at found
  simp only [visit, getThrough, found, Call.url]

theorem visit_of_absent {call : Call} {c : Connection σ κ}
    (absent : (store.find call.url c.kept).1 = none) :
    (store.visit server call c).1 =
      ⟨call, (server call.request c.server).1.content call.url,
        [(call.request, (server call.request c.server).1)]⟩ := by
  rw [Call.url] at absent
  cases said : (server call.request c.server).1.content call.request.url <;>
    simp only [visit, getThrough, absent, logged, said, Call.url, List.nil_append]

variable (store)

/-- Writing down what is asked changes nothing. -/
theorem visit_eq_getThrough (call : Call) (c : Connection σ κ) :
    ((store.visit server call c).1.answer, (store.visit server call c).2) =
      getThrough store server call.version call.request c := by
  cases found : (store.find call.request.url c.kept).1 with
  | some body => simp only [visit, getThrough, found]
  | none =>
      cases said : (server call.request c.server).1.content call.request.url <;>
        simp only [visit, getThrough, found, logged, said]

theorem visit_answer (call : Call) (c : Connection σ κ) :
    (store.visit server call c).1.answer =
      (getThrough store server call.version call.request c).1 :=
  congrArg Prod.fst (store.visit_eq_getThrough server call c)

theorem visit_snd (call : Call) (c : Connection σ κ) :
    (store.visit server call c).2 = (getThrough store server call.version call.request c).2 :=
  congrArg Prod.snd (store.visit_eq_getThrough server call c)

theorem visit_url (call : Call) (c : Connection σ κ) :
    (store.visit server call c).1.url = call.url := rfl

theorem map_url_visits (calls : List Call) (c : Connection σ κ) :
    (store.visits server calls c).map Visit.url = calls.map Call.url := by
  induction calls generalizing c with
  | nil => rfl
  | cons call calls ih => rw [visits, List.map_cons, ih, List.map_cons, visit_url]

end Store

/-- An address was called for, and this was the answer. -/
def Answered (done : List Visit) (url : Text) (body : Option Text) : Prop :=
  ∃ v ∈ done, v.url = url ∧ v.answer = .ok body

theorem answered_append {done : List Visit} {w : Visit} {url : Text} {body : Option Text} :
    Answered (done ++ [w]) url body ↔
      Answered done url body ∨ (w.url = url ∧ w.answer = .ok body) := by
  simp only [Answered, List.mem_append, List.mem_singleton, or_and_right, exists_or,
    exists_eq_left]

/-- A store after some calls: it holds just the answers that were given. -/
structure Remembers (store : Store κ) (done : List Visit) (entries : List Kept) (kept : κ) :
    Prop where
  holds : store.Holds entries kept
  called : ∀ e ∈ entries, ∃ v ∈ done, v.url = e.url
  answered : ∀ url body, lastBody? entries url = some body ↔ Answered done url body

section Run
variable {store : Store κ} {server : Server σ} {capacity : Nat} {done : List Visit}
  {entries : List Kept}

theorem Remembers.start : Remembers store [] [] store.empty where
  holds := .empty
  called := fun _ member => nomatch member
  answered := by
    intro url body
    simp [lastBody?, Answered]

/-- While there is room, the store finds the answers that were given. -/
theorem Remembers.find {kept : κ} (h : Remembers store done entries kept)
    (map : store.IsMapBelow capacity) (few : (done.map Visit.url).toFinset.card < capacity)
    (url : Text) : (store.find url kept).1 = lastBody? entries url := by
  have fewer : (entries.map Kept.url).toFinset.card ≤ (done.map Visit.url).toFinset.card := by
    refine Finset.card_le_card fun url member => ?_
    simp only [List.mem_toFinset, List.mem_map] at member ⊢
    obtain ⟨e, listed, rfl⟩ := member
    exact h.called e listed
  exact map entries kept h.holds (Nat.lt_of_le_of_lt fewer few) url

/-- A visit whose answer, if it is one, was given before leaves the entries as they are. -/
theorem Remembers.keep {kept kept' : κ} (h : Remembers store done entries kept)
    (holds : store.Holds entries kept') {v : Visit}
    (known : ∀ body, v.answer = .ok body → Answered done v.url body) :
    Remembers store (done ++ [v]) entries kept' where
  holds := holds
  called := by
    intro e listed
    obtain ⟨w, member, same⟩ := h.called e listed
    exact ⟨w, List.mem_append_left _ member, same⟩
  answered := by
    intro url body
    rw [h.answered, answered_append]
    refine (or_iff_left_of_imp ?_).symm
    rintro ⟨rfl, told⟩
    exact known body told

/-- The first answer for an address comes in front. -/
theorem Remembers.learn {kept kept' : κ} (h : Remembers store done entries kept) {e : Kept}
    (holds : store.Holds (e :: entries) kept') {v : Visit} (url : v.url = e.url)
    (answer : v.answer = .ok e.body) (unanswered : ∀ body, ¬ Answered done e.url body) :
    Remembers store (done ++ [v]) (e :: entries) kept' where
  holds := holds
  called := by
    have new : v ∈ done ++ [v] := List.mem_append_right _ (List.mem_singleton_self v)
    refine List.forall_mem_cons.mpr ⟨⟨v, new, url⟩, fun f listed => ?_⟩
    obtain ⟨w, member, same⟩ := h.called f listed
    exact ⟨w, List.mem_append_left _ member, same⟩
  answered := by
    intro other body
    rw [answered_append, url, answer]
    by_cases same : e.url = other
    · subst same
      rw [lastBody?_cons_self]
      simp [unanswered]
    · rw [lastBody?_cons_of_ne _ same, h.answered]
      exact (or_iff_left fun new => same new.1).symm

theorem Remembers.visit {c : Connection σ κ} (h : Remembers store done entries c.kept)
    (map : store.IsMapBelow capacity) (few : (done.map Visit.url).toFinset.card < capacity)
    (server : Server σ) (call : Call) :
    ∃ entries', Remembers store (done ++ [(store.visit server call c).1]) entries'
      (store.visit server call c).2.kept := by
  have answer := store.visit_answer server call c
  have found := h.find map few call.url
  rw [Store.visit_snd]
  cases known : lastBody? entries call.url with
  | some body =>
      rw [known] at found
      rw [getThrough_of_found found] at answer ⊢
      refine ⟨entries, h.keep (h.holds.find _) fun b told => ?_⟩
      obtain rfl : body = b := by simpa [answer] using told
      exact (h.answered call.url body).mp known
  | none =>
      rw [known] at found
      have unanswered : ∀ b, ¬ Answered done call.url b := by
        intro b given
        rw [← h.answered, known] at given
        cases given
      cases said : (server call.request c.server).1.content call.url with
      | ok body =>
          rw [getThrough_of_told found said] at answer ⊢
          exact ⟨_, h.learn ((h.holds.find _).insert _) (Store.visit_url ..) answer unanswered⟩
      | error e =>
          rw [getThrough_of_failed found said] at answer ⊢
          refine ⟨entries, h.keep (h.holds.find _) fun b told => ?_⟩
          rw [answer] at told
          cases told

theorem card_done_lt {calls : List Call}
    (few : (done.map Visit.url ++ calls.map Call.url).toFinset.card < capacity) :
    (done.map Visit.url).toFinset.card < capacity := by
  refine Nat.lt_of_le_of_lt (Finset.card_le_card fun url member => ?_) few
  simp only [List.mem_toFinset, List.mem_append] at member ⊢
  exact .inl member

/-- Every visit of a run finds in the store what the visits before it have left there. -/
theorem exists_remembers_of_split {calls : List Call} {c : Connection σ κ}
    {earlier later : List Visit} {v : Visit} (map : store.IsMapBelow capacity)
    (h : Remembers store done entries c.kept)
    (few : (done.map Visit.url ++ calls.map Call.url).toFinset.card < capacity)
    (split : store.visits server calls c = earlier ++ v :: later) :
    ∃ entries c, Remembers store (done ++ earlier) entries c.kept ∧
      v = (store.visit server v.call c).1 := by
  induction calls generalizing done entries c earlier with
  | nil => simp [Store.visits] at split
  | cons call calls ih =>
      cases earlier with
      | nil =>
          obtain ⟨rfl, -⟩ := List.cons.inj split
          exact ⟨entries, c, by rwa [List.append_nil], rfl⟩
      | cons u earlier =>
          obtain ⟨rfl, rest⟩ := List.cons.inj split
          obtain ⟨entries', next⟩ := h.visit map (card_done_lt few) server call
          rw [List.append_cons done]
          refine ih next ?_ rest
          rwa [List.map_append, List.map_singleton, Store.visit_url, List.append_assoc]

theorem exists_remembers {calls : List Call} {state : σ} {earlier later : List Visit} {v : Visit}
    (map : store.IsMapBelow capacity)
    (few : (calls.map Call.url).toFinset.card < capacity)
    (split : store.visits server calls (store.connect state) = earlier ++ v :: later) :
    ∃ entries c, Remembers store earlier entries c.kept ∧
      v = (store.visit server v.call c).1 ∧
      (store.find v.url c.kept).1 = lastBody? entries v.url := by
  obtain ⟨entries, c, h, visit⟩ :=
    exists_remembers_of_split map Remembers.start (by simpa using few) split
  refine ⟨entries, c, h, visit, h.find map (Nat.lt_of_le_of_lt (Finset.card_le_card ?_) few) _⟩
  intro url member
  rw [← store.map_url_visits server calls (store.connect state), split]
  simp only [List.nil_append, List.mem_toFinset, List.map_append, List.mem_append] at member ⊢
  exact .inl member

/-- An address that has been answered is not asked for again. -/
theorem settled_of_answered {calls : List Call} {state : σ} {earlier later : List Visit} {v : Visit}
    (map : store.IsMapBelow capacity)
    (few : (calls.map Call.url).toFinset.card < capacity)
    (split : store.visits server calls (store.connect state) = earlier ++ v :: later)
    {body : Option Text} (answered : Answered earlier v.url body) :
    v.answer = .ok body ∧ v.exchanges = [] := by
  obtain ⟨entries, c, h, visit, found⟩ := exists_remembers map few split
  rw [(h.answered v.url body).mpr answered] at found
  rw [visit, Store.visit_of_found server found]
  exact ⟨rfl, rfl⟩

/-- An address that has not been answered is asked for. -/
theorem asked_of_unanswered {calls : List Call} {state : σ} {earlier later : List Visit} {v : Visit}
    (map : store.IsMapBelow capacity)
    (few : (calls.map Call.url).toFinset.card < capacity)
    (split : store.visits server calls (store.connect state) = earlier ++ v :: later)
    (unanswered : ∀ body, ¬ Answered earlier v.url body) :
    ∃ reply, v.exchanges = [(v.call.request, reply)] ∧ reply.Means v.url v.answer := by
  obtain ⟨entries, c, h, visit, found⟩ := exists_remembers map few split
  have absent : lastBody? entries v.url = none := by
    cases known : lastBody? entries v.url with
    | none => rfl
    | some body => exact absurd ((h.answered v.url body).mp known) (unanswered body)
  rw [absent] at found
  have asked := Store.visit_of_absent server found
  rw [← visit] at asked
  refine ⟨_, congrArg Visit.exchanges asked, ?_⟩
  rw [congrArg Visit.answer asked]
  exact Reply.means_content _ _

/-- The server that always says the same about an address, whatever kind of document is asked for. One
that looks at the kind may be asked for two kinds at one address, of which only the first answer is
kept. -/
def fixed (replies : Text → Reply) : Server σ := fun request state => (replies request.url, state)

/-- What comes of calls if nothing is kept. -/
def uncached (server : Server σ) : List Call → σ → List (Except Problem (Option Text))
  | [], _ => []
  | call :: calls, state =>
    (server call.request state).1.content call.url :: uncached server calls
      (server call.request state).2

theorem uncached_fixed (replies : Text → Reply) (calls : List Call) (state : σ) :
    uncached (fixed replies) calls state =
      calls.map fun call => (replies call.url).content call.url := by
  induction calls with
  | nil => rfl
  | cons call calls ih => exact congrArg (_ :: ·) ih

theorem answer_visit_fixed {replies : Text → Reply} {c : Connection σ κ}
    (map : store.IsMapBelow capacity) (h : Remembers store done entries c.kept)
    (few : (done.map Visit.url).toFinset.card < capacity)
    (same : ∀ u ∈ done, u.answer = (replies u.url).content u.url) (call : Call) :
    (store.visit (fixed replies) call c).1.answer = (replies call.url).content call.url := by
  have found := h.find map few call.url
  cases known : lastBody? entries call.url with
  | none =>
      rw [known] at found
      rw [Store.visit_of_absent _ found]
      rfl
  | some body =>
      obtain ⟨u, member, url, answer⟩ := (h.answered call.url body).mp known
      rw [known] at found
      rw [Store.visit_of_found _ found, ← answer, ← url]
      exact same u member

theorem map_answer_visits_fixed {replies : Text → Reply} {calls : List Call} {c : Connection σ κ}
    (map : store.IsMapBelow capacity) (h : Remembers store done entries c.kept)
    (few : (done.map Visit.url ++ calls.map Call.url).toFinset.card < capacity)
    (same : ∀ u ∈ done, u.answer = (replies u.url).content u.url) :
    (store.visits (fixed replies) calls c).map Visit.answer =
      calls.map fun call => (replies call.url).content call.url := by
  induction calls generalizing done entries c with
  | nil => rfl
  | cons call calls ih =>
      have answer := answer_visit_fixed map h (card_done_lt few) same call
      obtain ⟨entries', next⟩ := h.visit map (card_done_lt few) (fixed replies) call
      rw [Store.visits, List.map_cons, List.map_cons, answer, ih next]
      · rwa [List.map_append, List.map_singleton, Store.visit_url, List.append_assoc]
      · intro u member
        rcases List.mem_append.mp member with old | new
        · exact same u old
        · rw [List.mem_singleton.mp new]
          exact answer

/-- Over a store that forgets nothing as long as it has room, and for calls for so few addresses: an
address that has been answered, with a text or with nothing, gets the same answer from then on and
is asked for no more; any other is asked for, and the answer is what the reply means. A call that
fails changes nothing in the store, and the next call for its address asks again. So if the server
always says the same about an address, without a look at the kind of document that is wanted, keeping
answers makes no difference to what comes of the calls. -/
theorem get_settles (store : Store κ) {capacity : Nat} (map : store.IsMapBelow capacity)
    (server : Server σ) (state : σ) (calls : List Call)
    (few : (calls.map Call.url).toFinset.card < capacity) :
    (∀ earlier v later,
      store.visits server calls (store.connect state) = earlier ++ v :: later →
      (∀ body, Answered earlier v.url body → v.answer = .ok body ∧ v.exchanges = []) ∧
      ((∀ body, ¬ Answered earlier v.url body) →
        ∃ reply, v.exchanges = [(v.call.request, reply)] ∧ reply.Means v.url v.answer)) ∧
    (∀ version request (c : Connection σ κ) e,
      (getThrough store server version request c).1 = .error e →
      (getThrough store server version request c).2.kept = (store.find request.url c.kept).2) ∧
    (∀ earlier u between v later e,
      store.visits server calls (store.connect state) =
        earlier ++ u :: (between ++ v :: later) →
      u.answer = .error e → u.url = v.url → (∀ w ∈ between, w.url ≠ v.url) →
      ∃ reply, v.exchanges = [(v.call.request, reply)] ∧ reply.Means v.url v.answer) ∧
    ∀ replies : Text → Reply,
      (store.visits (fixed replies) calls (store.connect state)).map Visit.answer =
        uncached (fixed replies) calls state := by
  refine ⟨?_, fun version request c e => kept_of_error, ?_, fun replies => ?_⟩
  · intro earlier v later split
    exact ⟨fun body => settled_of_answered map few split, asked_of_unanswered map few split⟩
  · intro earlier u between v later e split failed same others
    have split' : store.visits server calls (store.connect state) =
        (earlier ++ u :: between) ++ v :: later := by rw [split]; simp
    refine asked_of_unanswered map few split' ?_
    rintro body ⟨w, member, url, answer⟩
    rcases List.mem_append.mp member with before | after
    · -- Then the failed call would have been answered from the store.
      obtain ⟨answered, -⟩ :=
        settled_of_answered map few split ⟨w, before, url.trans same.symm, answer⟩
      rw [failed] at answered
      cases answered
    · rcases List.mem_cons.mp after with rfl | within
      · rw [failed] at answer
        cases answer
      · exact others w within url
  · rw [uncached_fixed]
    exact map_answer_visits_fixed map .start (by simpa using few) fun u member => nomatch member

end Run

namespace Recovering

/-- The server is overloaded at first. -/
def server : Server Nat := fun _ count =>
  (if count = 0 then .answered 503 (.ok []) else .answered 200 (.ok "pong".toList), count + 1)

def call (accept : Option Text) : Call := ⟨"latest".toList, "http://ping.test".toList, accept⟩

def calls : List Call := [call none, call (some "text/plain".toList), call none]

/-- The first call fails, the second one asks again, and the third is answered from the store. -/
theorem get_settles_recovering :
    Store.ofList.IsMapBelow 2 ∧ (calls.map Call.url).toFinset.card < 2 ∧
      ∃ first second third,
        Store.ofList.visits server calls (Store.ofList.connect 0) = [first, second, third] ∧
        first.answer ≠ second.answer ∧ (∃ reply, second.exchanges = [(second.call.request, reply)]) ∧
        third.answer = second.answer ∧ third.exchanges = [] := by
  have map := Store.isMapBelow_ofList 2
  have few : (calls.map Call.url).toFinset.card < 2 := by decide
  obtain ⟨settled, -, retried, -⟩ := get_settles Store.ofList map server 0 calls few
  refine ⟨map, few, _, _, _, rfl, by decide, ?_, ?_⟩
  · obtain ⟨reply, asked, -⟩ := retried [] _ [] _ _ _ rfl rfl rfl (fun _ member => nomatch member)
    exact ⟨reply, asked⟩
  · exact (settled [_, _] _ [] rfl).1 _
      ⟨_, List.mem_cons_of_mem _ (List.mem_singleton_self _), rfl, rfl⟩

end Recovering
end ApiReference.Web
