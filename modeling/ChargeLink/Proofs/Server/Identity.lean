import ChargeLink.Client
import ChargeLink.Proofs.Server.Reception

/-!
# By which id a server knows a charge point

A charge point puts its id behind the address of its central system, and the
server takes the id out of the path again. Both drop slashes, so the server
finds the last part of the address that is not empty: the id itself, if it is
not empty and has no slash, and something else otherwise. Charge points with
different ids of this kind do not get into each other's way.

* `Client.lastPart_of_chargePointId?`: what the server finds.
* `Server.station?_admitted`: whom a charge point that is admitted leaves alone.
* `Reception.Reachable.identified`: by which id a server knows a charge point.
* `Reception.slash_in_front`: an id that the server takes for another one.
-/

namespace ChargeLink

namespace Client

variable {cs front back part x y : List Char} {base id target : String}

/-! ## Parts of an address -/

/-- A part of a path: it is not empty and has no slash. -/
def Segment (part : List Char) : Prop :=
  part ≠ [] ∧ '/' ∉ part

instance (part : List Char) : Decidable (Segment part) :=
  inferInstanceAs (Decidable (_ ∧ _))

/-- The part is the last one of an address that is not empty. -/
def LastPart (address part : List Char) : Prop :=
  ∃ front back, address = front ++ part ++ back ∧ front.getLast? = some '/' ∧
    (∀ c ∈ back, c = '/') ∧ Segment part

/-- The address has neither a query nor a fragment. -/
def Bare (s : String) : Prop :=
  '?' ∉ s.toList ∧ '#' ∉ s.toList

instance (s : String) : Decidable (Bare s) :=
  inferInstanceAs (Decidable (_ ∧ _))

/-- An address has one last part. -/
theorem LastPart.unique (hx : LastPart cs x) (hy : LastPart cs y) : x = y := by
  -- read from its end, an address shows its last part after some slashes
  have read : ∀ {part}, LastPart cs part →
      part.reverse = (cs.reverse.dropWhile (· == '/')).takeWhile (· != '/') := by
    rintro part ⟨front, back, rfl, last, slashes, nonempty, whole⟩
    obtain ⟨before, rfl⟩ := List.getLast?_eq_some_iff.1 last
    have skipped : ∀ c ∈ back.reverse, (c == '/') = true := by simpa using slashes
    have taken : ∀ c ∈ part.reverse, (c != '/') = true := by
      intro c mem
      have mem : c ∈ part := List.mem_reverse.1 mem
      simpa using fun same : c = '/' => whole (same ▸ mem)
    have stops : (part.reverse ++ '/' :: before.reverse).dropWhile (· == '/') =
        part.reverse ++ '/' :: before.reverse := by
      cases shown : part.reverse with
      | nil => exact absurd (List.reverse_eq_nil_iff.1 shown) nonempty
      | cons c r =>
        have other : c ≠ '/' := by simpa using taken c (by simp [shown])
        simp [other]
    simp only [List.reverse_append, List.reverse_cons, List.reverse_nil, List.nil_append,
      List.singleton_append]
    rw [List.dropWhile_append_of_pos skipped, stops, List.takeWhile_append_of_pos taken]
    simp
  rw [← List.reverse_inj, read hx, read hy]

/-- Slashes end with a slash. -/
theorem getLast?_of_slashes (some : front ≠ []) (slashes : ∀ c ∈ front, c = '/') :
    front.getLast? = Option.some '/' := by
  rw [List.getLast?_eq_some_getLast some, slashes _ (List.getLast_mem some)]

theorem toList_address (base id : String) : ∃ trimmed, trimmed <+: base.toList ∧
    (address base id).toList = trimmed ++ '/' :: id.toList := by
  refine ⟨(base.toList.reverse.dropWhile fun c => c == '/').reverse, ?_, ?_⟩
  · have suffix := List.dropWhile_suffix (l := base.toList.reverse) fun c => c == '/'
    simpa only [List.reverse_reverse] using List.reverse_prefix.2 suffix
  · simp [address]

/-- Behind an address, an id that is a part of a path is the last part. -/
theorem lastPart_address (base : String) (segment : Segment id.toList) :
    LastPart (Client.address base id).toList id.toList := by
  obtain ⟨trimmed, -, shape⟩ := toList_address base id
  exact ⟨trimmed ++ ['/'], [], by simp [shape], by simp, by simp, segment⟩

theorem Bare.address (hb : Bare base) (hi : Bare id) : Bare (Client.address base id) := by
  obtain ⟨trimmed, within, shape⟩ := toList_address base id
  have none : ∀ c, c ≠ '/' → c ∉ base.toList → c ∉ id.toList → c ∉ trimmed ++ '/' :: id.toList := by
    intro c other absent absent' mem
    rcases List.mem_append.1 mem with mem | mem
    · exact absent (within.subset mem)
    · exact (List.mem_cons.1 mem).elim other absent'
  rw [Bare, shape]
  exact ⟨none '?' (by decide) hb.1 hi.1, none '#' (by decide) hb.2 hi.2⟩

end Client

namespace Handshake

open Client (Segment LastPart getLast?_of_slashes)

variable {cs : List Char} {path id : String}

/-! ## What the server finds in a path -/

theorem idOf?_eq_some_iff : idOf? cs = some id ↔ Segment cs ∧ id.toList = cs := by
  unfold idOf? Segment
  by_cases none : cs = [] ∨ '/' ∈ cs
  · rw [if_pos (by simpa using none)]
    simp only [reduceCtorEq, ne_eq, false_iff, not_and]
    rintro ⟨some, whole⟩
    exact absurd none (not_or.2 ⟨some, whole⟩)
  · rw [if_neg (by simpa using none), Option.some.injEq]
    rw [not_or] at none
    constructor
    · rintro rfl
      exact ⟨none, String.toList_ofList⟩
    · rintro ⟨-, rfl⟩
      exact String.ofList_toList

/-- A path is what it is without slashes in front, behind some slashes. -/
theorem eq_slashes_append (cs : List Char) :
    ∃ front, cs = front ++ afterSlashes cs ∧ ∀ c ∈ front, c = '/' := by
  refine ⟨cs.takeWhile fun c => c == '/', List.takeWhile_append_dropWhile.symm, fun c mem => ?_⟩
  simpa using List.mem_takeWhile_imp mem

theorem eq_betweenSlashes_append (cs : List Char) : ∃ front back,
    cs = front ++ betweenSlashes cs ++ back ∧ (∀ c ∈ front, c = '/') ∧ ∀ c ∈ back, c = '/' := by
  obtain ⟨front, shape, slashes⟩ := eq_slashes_append cs
  obtain ⟨back, shape', slashes'⟩ := eq_slashes_append (afterSlashes cs).reverse
  refine ⟨front, back.reverse, ?_, slashes, fun c mem => slashes' c (List.mem_reverse.1 mem)⟩
  have inner : afterSlashes cs = betweenSlashes cs ++ back.reverse := by
    rw [betweenSlashes, ← List.reverse_append, ← shape', List.reverse_reverse]
  rw [List.append_assoc, ← inner, ← shape]

/-- **A path names a charge point by its last part.** -/
theorem lastPart_of_chargePointId? (slash : path.toList.head? = some '/')
    (names : chargePointId? path = some id) : LastPart path.toList id.toList := by
  obtain ⟨front, shape, slashes⟩ := eq_slashes_append path.toList
  unfold chargePointId? at names
  split at names
  · rename_i rest named
    obtain ⟨segment, same⟩ := idOf?_eq_some_iff.1 names
    obtain ⟨front', back, shape', slashes', ends⟩ := eq_betweenSlashes_append rest
    refine ⟨front ++ ['o', 'c', 'p', 'p'] ++ '/' :: front', back, ?_, ?_, ends, same ▸ segment⟩
    · rw [shape, named, same]
      conv_lhs => rw [shape']
      simp
    · rw [List.getLast?_append_of_ne_nil _ (by simp)]
      exact getLast?_of_slashes (by simp) (List.forall_mem_cons.2 ⟨rfl, slashes'⟩)
  · obtain ⟨segment, same⟩ := idOf?_eq_some_iff.1 names
    refine ⟨front, [], ?_, getLast?_of_slashes ?_ slashes, by simp, same ▸ segment⟩
    · rw [List.append_nil, same]
      exact shape
    · rintro rfl
      rw [List.nil_append, ← same] at shape
      rw [shape] at slash
      exact (same ▸ segment).2 (List.mem_of_head? slash)

theorem pathOf_of_bare {target : String} (bare : Client.Bare target) : pathOf target = target := by
  have all : ∀ c ∈ target.toList, (c != '?' && c != '#') = true := by
    intro c mem
    have query : c ≠ '?' := fun same => bare.1 (same ▸ mem)
    have fragment : c ≠ '#' := fun same => bare.2 (same ▸ mem)
    simp [query, fragment]
  rw [pathOf, List.takeWhile_eq_self_iff.2 all, String.ofList_toList]

end Handshake

namespace Client

variable {base id whole target x : String}

/-! ## What the server finds in the path of an address -/

/-- What is requested of the part of an address behind its host, if there is something. -/
theorem pathAfterHost?_eq_some {cs : List Char} (query : '?' ∉ cs) (fragment : '#' ∉ cs)
    (asks : pathAfterHost? cs = some target) : target = "/" ∨ target.toList = cs ∧ cs ≠ [] := by
  have all : ∀ {d}, d ∉ cs → (cs.takeWhile fun c => c != d) = cs := by
    intro d absent
    refine List.takeWhile_eq_self_iff.2 fun c mem => ?_
    simpa using fun same : c = d => absent (same ▸ mem)
  have whole := all fragment
  have path := all query
  unfold pathAfterHost? at asks
  simp only [whole, path] at asks
  split at asks
  · cases asks
  · split at asks
    · exact .inl (Option.some.inj asks).symm
    · rename_i nonempty
      rw [← Option.some.inj asks]
      exact .inr ⟨String.toList_ofList, fun none => nonempty (List.isEmpty_iff.2 none)⟩

/-- A character of the host of an address, which ends where a path, a query or a fragment starts. -/
def isHostChar (c : Char) : Bool :=
  c != '/' && c != '?' && c != '#'

theorem drop_host (r : List Char) :
    r.drop (r.takeWhile isHostChar).length = r.dropWhile isHostChar :=
  calc r.drop (r.takeWhile isHostChar).length
    _ = (r.takeWhile isHostChar ++ r.dropWhile isHostChar).drop
        (r.takeWhile isHostChar).length := by
      rw [List.takeWhile_append_dropWhile]
    _ = r.dropWhile isHostChar := List.drop_left

/-- Without a query and a fragment, only a path can follow the host. -/
theorem eq_slash_of_dropWhile {r cs : List Char} {c : Char} (query : '?' ∉ r) (fragment : '#' ∉ r)
    (rest : r.dropWhile isHostChar = c :: cs) : c = '/' := by
  have mem : c ∈ r := (List.dropWhile_suffix isHostChar).subset (rest ▸ List.mem_cons_self)
  have stops : isHostChar c = false := by
    have first := List.head?_dropWhile_not isHostChar r
    rwa [rest] at first
  by_contra other
  have query : c ≠ '?' := fun same => query (same ▸ mem)
  have fragment : c ≠ '#' := fun same => fragment (same ▸ mem)
  simp [isHostChar, other, query, fragment] at stops

/-- **The path that is requested from an address** is what follows its host, or a lone slash. -/
theorem path?_eq_some (bare : Bare whole) (asks : path? whole = some target) : target = "/" ∨
    Bare target ∧ target.toList.head? = some '/' ∧
      ∃ front, whole.toList = front ++ target.toList := by
  unfold path? at asks
  split at asks
  · rename_i r shape
    change (if Authority.accepts (r.takeWhile isHostChar) then
      pathAfterHost? (r.drop (r.takeWhile isHostChar).length) else none) = some target at asks
    split at asks
    · rw [drop_host] at asks
      have within : ∀ c ∈ r, c ∈ whole.toList := by
        intro c mem
        simp [shape, mem]
      have behind : ∀ c ∈ r.dropWhile isHostChar, c ∈ r := fun c mem =>
        (List.dropWhile_suffix isHostChar).subset mem
      have query := mt (within '?') bare.1
      have fragment := mt (within '#') bare.2
      have query' := mt (behind '?') query
      have fragment' := mt (behind '#') fragment
      refine (pathAfterHost?_eq_some query' fragment' asks).imp_right ?_
      rintro ⟨same, nonempty⟩
      obtain ⟨c, cs, rest⟩ := List.exists_cons_of_ne_nil nonempty
      refine ⟨⟨same ▸ query', same ▸ fragment'⟩, ?_,
        ['w', 's', ':', '/', '/'] ++ r.takeWhile isHostChar, ?_⟩
      · rw [same, rest, eq_slash_of_dropWhile query fragment rest]
        rfl
      · rw [shape, same, List.append_assoc, List.takeWhile_append_dropWhile]
        rfl
    · cases asks
  · cases asks

/-- **The server finds the last part of the address.** -/
theorem lastPart_of_path? (bare : Bare whole) (asks : path? whole = some target)
    (names : Handshake.chargePointId? (Handshake.pathOf target) = some x) :
    LastPart whole.toList x.toList := by
  rcases path?_eq_some bare asks with rfl | ⟨bare', slash, before, shape⟩
  · have nobody : Handshake.chargePointId? (Handshake.pathOf "/") = none := by decide
    rw [nobody] at names
    cases names
  · rw [Handshake.pathOf_of_bare bare'] at names
    obtain ⟨front, back, parts, last, slashes, segment⟩ :=
      Handshake.lastPart_of_chargePointId? slash names
    refine ⟨before ++ front, back, by rw [shape, parts]; simp, ?_, slashes, segment⟩
    rw [List.getLast?_append, last]
    rfl

/-- **The server finds the id itself if and only if it is a part of a path.** -/
theorem eq_iff_segment (bare : Bare base) (bare' : Bare id)
    (asks : path? (Client.address base id) = some target)
    (names : Handshake.chargePointId? (Handshake.pathOf target) = some x) :
    x = id ↔ Segment id.toList := by
  have found := lastPart_of_path? (bare.address bare') asks names
  constructor
  · rintro rfl
    obtain ⟨-, -, -, -, -, segment⟩ := found
    exact segment
  · intro segment
    exact String.toList_injective (found.unique (lastPart_address base segment))

end Client

/-! ## Whom an admission leaves alone -/

namespace Hub

variable {h : Hub} {n k : ℕ}

theorem station?_act (f : Station → Station) (other : k ≠ n) :
    (h.act n f).station? k = h.station? k := by
  unfold act
  split
  · exact List.getElem?_set_ne (Ne.symm other)
  · rfl

theorem station?_close (other : k ≠ n) : (h.close n).2.station? k = h.station? k := by
  unfold close
  split
  · exact List.getElem?_set_ne (Ne.symm other)
  · rfl

end Hub

namespace Server

variable {s : Server} {n k : ℕ} {id : String} {r : Registry}

theorem station?_collect (s : Server) (other : k ≠ n) :
    (s.collect n).hub.station? k = s.hub.station? k := by
  unfold collect
  split
  · rfl
  · exact Hub.station?_act _ other

/-- Closing a session leaves the index and all other sessions as they are. -/
theorem station?_close (s : Server) (n : ℕ) : (s.close n).hub.index = s.hub.index ∧
    ∀ k, k ≠ n → (s.close n).hub.station? k = s.hub.station? k := by
  constructor
  · exact (tends_collect _ n).hub.index.trans (Hub.Tends.close _ n).index
  · exact fun k other => (station?_collect _ other).trans (Hub.station?_close other)

/-- **A charge point that is admitted is registered under its id,** and every session that is not
registered under this id stays as it is. -/
theorem station?_admitted (s : Server) (id : String) (r : Registry) :
    (s.admitted id r).hub.index = (s.hub.index.register id s.hub.nextNumber).2 ∧
    ∀ k, k ≠ s.hub.nextNumber → s.hub.index.get? id ≠ some k →
      (s.admitted id r).hub.station? k = s.hub.station? k := by
  obtain ⟨t, taken, notes, -, -, rfl, -, enters⟩ := s.enter_eq id r
  -- the new session comes last, and the others are where they were
  have there : ∀ k, k ≠ s.hub.nextNumber →
      (s.hub.entered t).station? k = s.hub.station? k := by
    intro k other
    refine Option.ext fun u => (Hub.station?_entered s.hub t).trans ?_
    exact or_iff_left fun new => other new.1
  unfold admitted
  rw [enters]
  cases s.hub.index.get? t.session.chargePointId with
  | none => exact ⟨rfl, fun k other _ => there k other⟩
  | some old =>
    obtain ⟨index, others⟩ := station?_close
      { s with hub := s.hub.entered t, links := s.links ++ [.create none], notes } old
    refine ⟨index, fun k other spared => ?_⟩
    exact (others k fun same => spared (congrArg some same.symm)).trans (there k other)

end Server

namespace Reception

open Client (Bare Segment LastPart)
open Server (serving)

variable {rs : List Registry} {p p' : Reception} {base id other target : String}
  {header : Option String} {n : ℕ} {t : Station}

/-! ## By which id a server knows a charge point -/

theorem server_greet (p : Reception) (target : String) (header : Option String) :
    (p.greet target header).server = (p.server.connect target header).2.2 := by
  unfold greet
  split <;> rename_i same <;> rw [same]

/-- What happens at a server is part of a run of its index. -/
theorem Reachable.annals (h : Reachable rs p) :
    ∃ a : Annals, a.Reachable ∧ a.server = p.server := by
  induction h with
  | start config =>
    induction rs using List.reverseRecOn with
    | nil => exact ⟨_, .start config, rfl⟩
    | append_singleton rs r ih =>
      obtain ⟨a, h, same⟩ := ih
      rw [serving, List.foldl_append]
      exact ⟨_, h.step (.tend (s := a.server.serve r) ⟨.refl _, rfl, rfl⟩),
        congrArg (Server.serve · r) same⟩
  | @step p p' _ step ih =>
    obtain ⟨⟨s, record, errands, sweeps, closures⟩, h, rfl⟩ := ih
    cases step with
    | greet target header =>
      rw [server_greet]
      obtain ⟨later, closures, h⟩ := h.connects target header
      exact ⟨_, h, rfl⟩
    | drive n f moves =>
      rcases p.server.connection_or n with ⟨t, l, station, link⟩ | none
      · exact ⟨_, h.step (.drive n f station link (moves t l station link)), rfl⟩
      · rw [Server.onConnection_of_none f none]
        exact ⟨_, h, rfl⟩
    | retire n =>
      obtain ⟨later, h⟩ := h.retires n
      exact ⟨_, h, rfl⟩
    | settle =>
      obtain ⟨later, h⟩ := h.settles
      exact ⟨_, h, rfl⟩
    | signal => exact ⟨_, h.step .signal, rfl⟩
    | clear =>
      obtain ⟨closures, h⟩ := h.clears
      exact ⟨_, h, rfl⟩
    | takeNotes =>
      exact ⟨_, h.step (.tend (s := p.server.takeNotes.2) ⟨.refl _, rfl, rfl⟩), rfl⟩

/-- The session is one for a charge point that has connected to the base under the id. -/
def Opened (p : Reception) (base id : String) (n : ℕ) : Prop :=
  ∃ target header, Client.path? (Client.address base id) = some target ∧
    p.requests[n]? = some (target, header)

/-- The server knows a charge point that connects to the base under the id as `x`. -/
def Knows (base id x : String) : Prop :=
  LastPart (Client.address base id).toList x.toList

/-- An id that is a part of a path is the one that the server knows. -/
theorem knows_iff (segment : Segment id.toList) {x : String} : Knows base id x ↔ x = id := by
  have own := Client.lastPart_address base segment
  constructor
  · intro knows
    exact String.toList_injective (knows.unique own)
  · rintro rfl
    exact own

/-- The session for a charge point carries the id by which the server knows it. -/
theorem Reachable.opened (h : Reachable rs p) (bare : Bare base) (bare' : Bare id) {x : String}
    (knows : Knows base id x) (opened : p.Opened base id n)
    (found : p.server.hub.station? n = some t) : t.session.chargePointId = x := by
  obtain ⟨target, header, asks, listed⟩ := opened
  obtain ⟨request, listed', suits⟩ := h.sound.suits n t found
  rw [listed] at listed'
  cases listed'
  have last := Client.lastPart_of_path? (bare.address bare') asks suits.path
  exact String.toList_injective (last.unique knows)

/-- What the index holds under a key is a session with this id. -/
theorem Reachable.keyed (h : Reachable rs p) {key : String}
    (held : p.server.hub.index.get? key = some n) :
    ∃ t, p.server.hub.station? n = some t ∧ t.session.chargePointId = key := by
  obtain ⟨a, annals, same⟩ := h.annals
  have hub := same ▸ annals.sound.hub
  exact hub.entries _ _ ((SessionIndex.get?_eq_some_iff hub.tells.distinct).1 held)

/-- A charge point that is admitted is in the index under its id, and the other entries stay. -/
theorem Reachable.registered (h : Reachable rs p) (x : String) (r : Registry) :
    (p.server.admitted x r).hub.index.get? x = some p.server.hub.nextNumber ∧
    (∃ t, (p.server.admitted x r).hub.station? p.server.hub.nextNumber = some t ∧
      t.session.chargePointId = x) ∧
    ∀ y, y ≠ x → (p.server.admitted x r).hub.index.get? y = p.server.hub.index.get? y := by
  obtain ⟨⟨s, record, errands, sweeps, closures⟩, annals, rfl⟩ := h.annals
  have distinct := annals.sound.hub.tells.distinct
  obtain ⟨_, admitted⟩ := annals.admits x r
  have joined := admitted.sound.hub
  obtain ⟨index, -⟩ := p.server.station?_admitted x r
  have own : (p.server.admitted x r).hub.index.get? x = some p.server.hub.nextNumber := by
    rw [index, SessionIndex.get?_register_self distinct]
  have entry := (SessionIndex.get?_eq_some_iff joined.tells.distinct).1 own
  refine ⟨own, joined.entries _ _ entry, fun y different => ?_⟩
  rw [index, SessionIndex.get?_register_of_ne distinct different]

/-- The session of a charge point that is known by another id stays as it is. -/
theorem Reachable.spared (h : Reachable rs p) (bare : Bare base) (bare' : Bare other) {x y : String}
    (knows : Knows base other y) (different : y ≠ x) (opened : p.Opened base other n)
    (r : Registry) : (p.server.admitted x r).hub.station? n = p.server.hub.station? n := by
  have lt : n < p.server.hub.stations.length := by
    obtain ⟨_, _, -, listed⟩ := opened
    exact h.sound.length ▸ (List.getElem?_eq_some_iff.1 listed).1
  refine (p.server.station?_admitted x r).2 n (Nat.ne_of_lt lt) fun held => ?_
  -- the session that is replaced is one under the same id
  obtain ⟨u, found, same⟩ := h.keyed held
  exact different ((h.opened bare bare' knows opened found).symm.trans same)

/-- **By which id a server knows a charge point.** One that connects to a base under an id is
registered, if it is accepted, under the last part of its address that is not empty, and its session
carries that; it is the id itself if and only if the id is neither empty nor has a slash. Charge
points that connect to the same base and are known by different ids leave each other alone: each
session is in the index under its own id and no other, and when one of them is admitted, the
sessions of the others and their entries in the index stay as they are. -/
theorem Reachable.identified (h : Reachable rs p) (bare : Bare base) :
    (∀ id, Segment id.toList → ∀ x, Knows base id x ↔ x = id) ∧
    (∀ id n t x, Bare id → Knows base id x → p.Opened base id n →
      p.server.hub.station? n = some t → t.session.chargePointId = x ∧
        ∀ key, p.server.hub.index.get? key = some n → key = x) ∧
    ∀ id target header x v named, Bare id → Client.path? (Client.address base id) = some target →
      (p.server.connect target header).1 = .accepted x v named →
      Knows base id x ∧ (x = id ↔ Segment id.toList) ∧
      ∃ r t, (p.server.connect target header).2.2 = (p.server.admitted x r).settle ∧
        (p.server.admitted x r).hub.index.get? x = some p.server.hub.nextNumber ∧
        (p.server.admitted x r).hub.station? p.server.hub.nextNumber = some t ∧
        t.session.chargePointId = x ∧
        ∀ other n y, Bare other → Knows base other y → y ≠ x → p.Opened base other n →
          (p.server.admitted x r).hub.station? n = p.server.hub.station? n ∧
          (p.server.admitted x r).hub.index.get? y = p.server.hub.index.get? y := by
  refine ⟨fun id segment x => knows_iff segment, ?_, ?_⟩
  · intro id n t x bare' knows opened found
    have own := h.opened bare bare' knows opened found
    refine ⟨own, fun key held => ?_⟩
    obtain ⟨u, found', same⟩ := h.keyed held
    rw [found] at found'
    cases found'
    exact same.symm.trans own
  · intro id target header x v named bare' asks answer
    rw [Server.connect_fst] at answer
    obtain ⟨names, -⟩ := h.sound.accepted_iff.1 answer
    obtain ⟨r, found, -⟩ := h.sound.exists_registry answer
    obtain ⟨entry, ⟨t, there, own⟩, entries⟩ := h.registered x r
    refine ⟨Client.lastPart_of_path? (bare.address bare') asks names,
      Client.eq_iff_segment bare bare' asks names, r, t, ?_, entry, there, own, ?_⟩
    · rw [Server.connect_of_accepted answer found]
    · intro other n y bare'' knows different opened
      exact ⟨h.spared bare bare'' knows different opened r, entries y different⟩

/-- A server of both versions to which a charge point has connected as `CP1`, at a base with slashes
at its end. -/
def alone : Reception :=
  greet ⟨serving ⟨10, .queue, 1, .standard⟩ replaced, []⟩ "/ocpp/CP1" (some "ocpp1.6")

/-- Another charge point connects to the same base as `CP2`: it is registered as such, and the
session of the first one stays as it is. -/
theorem identified_second : Reachable replaced alone ∧ Bare "ws://host/ocpp//" ∧
    Client.path? (Client.address "ws://host/ocpp//" "CP2") = some "/ocpp/CP2" ∧
    ∃ r, (alone.server.admitted "CP2" r).hub.index.get? "CP2" = some 1 ∧
      (alone.server.admitted "CP2" r).hub.index.get? "CP1" = some 0 ∧
      (alone.server.admitted "CP2" r).hub.station? 0 = alone.server.hub.station? 0 := by
  have reachable : Reachable replaced alone := (Reachable.start _).step (.greet ..)
  have bare : ∀ s ∈ ["ws://host/ocpp//", "CP1", "CP2"], Bare s := by decide +kernel
  obtain ⟨plain, -, admits⟩ := reachable.identified (bare "ws://host/ocpp//" (by decide))
  have asks : Client.path? (Client.address "ws://host/ocpp//" "CP2") = some "/ocpp/CP2" := by
    decide +kernel
  have answer : (alone.server.connect "/ocpp/CP2" (some "ocpp2.0.1")).1 =
      .accepted "CP2" .v201 (some "ocpp2.0.1") := by decide +kernel
  obtain ⟨-, -, r, -, -, registered, -, -, others⟩ :=
    admits "CP2" "/ocpp/CP2" (some "ocpp2.0.1") "CP2" .v201 _ (bare "CP2" (by decide)) asks answer
  have next : alone.server.hub.nextNumber = 1 := by decide +kernel
  have opened : alone.Opened "ws://host/ocpp//" "CP1" 0 :=
    ⟨"/ocpp/CP1", some "ocpp1.6", by decide +kernel, by decide +kernel⟩
  have first : alone.server.hub.index.get? "CP1" = some 0 := by decide +kernel
  have knows : Knows "ws://host/ocpp//" "CP1" "CP1" :=
    (plain "CP1" (by decide +kernel) "CP1").2 rfl
  obtain ⟨same, entry⟩ := others "CP1" 0 "CP1" (bare "CP1" (by decide)) knows (by decide) opened
  exact ⟨reachable, bare _ (by decide), asks, r, next ▸ registered, entry.trans first, same⟩

/-- An id with a slash in front is taken for the one without it: whoever connects under it is
registered under the other one, and the session that had this id is closed. -/
theorem slash_in_front :
    Client.path? (Client.address "ws://host/ocpp" "/CP1") = some "/ocpp//CP1" ∧
    (alone.server.connect "/ocpp//CP1" (some "ocpp1.6")).1 =
      .accepted "CP1" .v16 (some "ocpp1.6") ∧
    alone.server.hub.index.get? "CP1" = some 0 ∧
    (alone.server.hub.station? 0).map (·.session.phase) = some .opened ∧
    (alone.server.connect "/ocpp//CP1" (some "ocpp1.6")).2.2.hub.index.entries = [("CP1", 1)] ∧
    ((alone.server.connect "/ocpp//CP1" (some "ocpp1.6")).2.2.hub.station? 0).map
      (·.session.phase) = some .closed := by
  decide +kernel

end Reception

end ChargeLink
