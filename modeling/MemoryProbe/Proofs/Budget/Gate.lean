import MemoryProbe.Proofs.Budget.Admission
import MemoryProbe.Proofs.EntrySum
import MemoryProbe.Proofs.Schedule

namespace MemoryProbe
namespace Budget

/-!
Any number of threads at one budget.  A thread asks for bytes and is served,
put to waiting or turned away; a thread that waits may ask again at any moment;
a reservation that is held may be given back at any moment.  A history is any
sequence of such acts.  `Balanced` holds after every one of them: the counter is
the sum of the reservations still held, and the peak is the greatest value that
the counter ever had.
-/

namespace Ledger

/-- The bytes of one place: none once its reservation was given back. -/
def placeBytes (place : Option Word) : Nat :=
  place.elim 0 UInt64.toNat

/-- The bytes of all reservations that are still held. -/
def heldBytes (ledger : Ledger) : Nat :=
  (ledger.reservations.map placeBytes).sum

theorem acquire_eq (ledger : Ledger) (bytes : Word) :
    ledger.acquire bytes =
      match ledger.budget.acquire bytes with
      | .error stop => .error stop
      | .ok (.granted budget) => .ok (.granted, ledger.record budget bytes)
      | .ok .wait => .ok (.blocked, ledger) := by
  unfold acquire
  rcases ledger.budget.acquire bytes with stop | (budget | _) <;> rfl

theorem release_eq_of_held {ledger : Ledger} {index : Nat} {bytes : Word}
    (held : ledger.reservations[index]? = some (some bytes)) :
    ledger.release index =
      .ok (true,
        { budget := ledger.budget.release bytes
          reservations := ledger.reservations.set index none }) := by
  unfold release
  rw [held]

/-- Only a reservation that is held can be given back. -/
theorem held_of_release {ledger later : Ledger} {index : Nat}
    (returned : ledger.release index = .ok (true, later)) :
    ∃ bytes, ledger.reservations[index]? = some (some bytes) := by
  unfold release at returned
  rcases place : ledger.reservations[index]? with _ | (_ | bytes)
  · rw [place] at returned
    contradiction
  · rw [place] at returned
    simp at returned
  · exact ⟨bytes, rfl⟩

theorem heldBytes_record (ledger : Ledger) (budget : Budget) (bytes : Word) :
    (ledger.record budget bytes).heldBytes = ledger.heldBytes + bytes.toNat := by
  simp [heldBytes, record, placeBytes]

theorem heldBytes_release {ledger : Ledger} {index : Nat} {bytes : Word}
    (held : ledger.reservations[index]? = some (some bytes)) (budget : Budget) :
    heldBytes ⟨budget, ledger.reservations.set index none⟩ + bytes.toNat =
      ledger.heldBytes :=
  sum_map_set placeBytes none held

/-- What is held at one place is part of what is held. -/
theorem le_heldBytes {ledger : Ledger} {index : Nat} {bytes : Word}
    (held : ledger.reservations[index]? = some (some bytes)) :
    bytes.toNat ≤ ledger.heldBytes :=
  le_sum_of_mem placeBytes (List.mem_of_getElem? held)

end Ledger

/-- The threads at a budget, seen through what they wait for and hold. -/
structure Gate where
  ledger : Ledger
  /-- The requests of the threads that wait. -/
  waiting : List Word := []
  /-- Every value that the counter had, the latest first. -/
  history : List Word := [0]

namespace Gate

/-- What a thread does. -/
inductive Act where
  /-- Ask for bytes. -/
  | ask (bytes : Word)
  /-- Ask again for what the thread waits for. -/
  | askAgain (index : Nat)
  /-- Give a reservation back. -/
  | giveBack (index : Nat)
deriving DecidableEq, Repr

/-- What comes of it. -/
inductive Reply where
  | granted
  | waits
  | refused (cause : ScanError)
  | panicked
  | returned
deriving DecidableEq, Repr

/-- Nobody has asked yet. -/
def start (ceiling : Word) : Gate where
  ledger := { budget := { ceiling := ceiling } }

/-- Take over a ledger and note its counter. -/
def moveTo (gate : Gate) (ledger : Ledger) : Gate :=
  { gate with
    ledger := ledger
    history := ledger.budget.used :: gate.history }

/-- The bytes that an act asks for. -/
def request? (gate : Gate) : Act -> Option Word
  | .ask bytes => some bytes
  | .askAgain index => gate.waiting[index]?
  | .giveBack _ => none

/-- Ask for bytes. -/
def ask (gate : Gate) (bytes : Word) : Reply × Gate :=
  match gate.ledger.acquire bytes with
  | .error (.failure cause) => (.refused cause, gate)
  | .error (.fault _) => (.panicked, gate)
  | .ok (.blocked, _) => (.waits, { gate with waiting := gate.waiting ++ [bytes] })
  | .ok (_, ledger) => (.granted, gate.moveTo ledger)

/-- One act; nothing if no such thread waits or no such reservation is held. -/
def step (gate : Gate) : Act -> Option (Reply × Gate)
  | .ask bytes => some (gate.ask bytes)
  | .askAgain index =>
    (gate.waiting[index]?).map fun bytes =>
      { gate with waiting := gate.waiting.eraseIdx index }.ask bytes
  | .giveBack index =>
    match gate.ledger.release index with
    | .ok (true, ledger) => some (.returned, gate.moveTo ledger)
    | _ => none

/-- A whole history of acts. -/
def follow (gate : Gate) (acts : List Act) : Option Gate :=
  acts.foldlM (fun gate act => (gate.step act).map Prod.snd) gate

/-- The accounts of a budget with a given ceiling are in order. -/
structure Balanced (ceiling : Word) (gate : Gate) : Prop where
  ceiling_eq : gate.ledger.budget.ceiling = ceiling
  used_eq : gate.ledger.budget.used.toNat = gate.ledger.heldBytes
  used_le : gate.ledger.budget.used.toNat ≤ ceiling.toNat
  history_head : gate.history.head? = some gate.ledger.budget.used
  peak_mem : gate.ledger.budget.peak ∈ gate.history
  history_le : forall used, used ∈ gate.history ->
    used.toNat ≤ gate.ledger.budget.peak.toNat
  history_le_ceiling : forall used, used ∈ gate.history -> used.toNat ≤ ceiling.toNat
  /-- Only requests that could be met are waited for. -/
  waiting_le : forall bytes, bytes ∈ gate.waiting -> bytes.toNat ≤ ceiling.toNat

/-! ## What an act does -/

/-- The four ends of a request, by the numbers alone. -/
inductive Asks (gate : Gate) (bytes : Word) : Reply × Gate -> Prop where
  | refused (wide : gate.ledger.budget.ceiling.toNat < bytes.toNat) :
    Asks gate bytes (.refused (.budgetExceeded bytes gate.ledger.budget.ceiling), gate)
  | panicked (fits : bytes.toNat ≤ gate.ledger.budget.ceiling.toNat)
    (beyond : UInt64.size ≤ gate.ledger.budget.used.toNat + bytes.toNat) :
    Asks gate bytes (.panicked, gate)
  | waits (fits : bytes.toNat ≤ gate.ledger.budget.ceiling.toNat)
    (full : gate.ledger.budget.ceiling.toNat <
      gate.ledger.budget.used.toNat + bytes.toNat) :
    Asks gate bytes (.waits, { gate with waiting := gate.waiting ++ [bytes] })
  | granted (used : Word)
    (total : used.toNat = gate.ledger.budget.used.toNat + bytes.toNat)
    (room : used.toNat ≤ gate.ledger.budget.ceiling.toNat) :
    Asks gate bytes
      (.granted, gate.moveTo (gate.ledger.record (gate.ledger.budget.withUsed used) bytes))

theorem ask_asks (gate : Gate) (bytes : Word) : gate.Asks bytes (gate.ask bytes) := by
  have reserves := gate.ledger.budget.acquire_reserves bytes
  unfold ask
  rw [Ledger.acquire_eq]
  cases answer : gate.ledger.budget.acquire bytes with
  | error stop =>
      rw [answer] at reserves
      cases reserves with
      | refused wide => exact .refused wide
      | overflow fits beyond => exact .panicked fits beyond
  | ok admission =>
      rw [answer] at reserves
      cases reserves with
      | wait fits full => exact .waits fits full
      | granted used total room => exact .granted used total room

/-- A history goes on act by act. -/
theorem follow_induction {holds : Gate -> Prop}
    (keeps : forall gate act reply next, holds gate ->
      gate.step act = some (reply, next) -> holds next)
    {acts : List Act} {first last : Gate} (begins : holds first)
    (followed : first.follow acts = some last) : holds last := by
  refine foldlM_induction holds (fun gate act next held stepped => ?_) begins followed
  rcases Option.map_eq_some_iff.mp stepped with ⟨⟨reply, later⟩, moved, rfl⟩
  exact keeps gate act reply later held moved

/-! ## The accounts are in order -/

namespace Balanced

variable {ceiling : Word} {gate : Gate}

theorem start (ceiling : Word) : Balanced ceiling (Gate.start ceiling) where
  ceiling_eq := rfl
  used_eq := rfl
  used_le := Nat.zero_le _
  history_head := rfl
  peak_mem := List.mem_singleton.mpr rfl
  history_le := by
    intro used member
    rw [List.mem_singleton.mp member]
    exact Nat.le_refl _
  history_le_ceiling := by
    intro used member
    rw [List.mem_singleton.mp member]
    exact Nat.zero_le _
  waiting_le := fun _ member => absurd member List.not_mem_nil

/-- Who waits does not touch the accounts, as long as the request could be met. -/
theorem withWaiting (balanced : Balanced ceiling gate) {waiting : List Word}
    (possible : forall bytes, bytes ∈ waiting -> bytes.toNat ≤ ceiling.toNat) :
    Balanced ceiling { gate with waiting := waiting } :=
  { balanced with waiting_le := possible }

theorem grant (balanced : Balanced ceiling gate) {bytes used : Word}
    (total : used.toNat = gate.ledger.budget.used.toNat + bytes.toNat)
    (room : used.toNat ≤ ceiling.toNat) :
    Balanced ceiling
      (gate.moveTo (gate.ledger.record (gate.ledger.budget.withUsed used) bytes)) := by
  have raised := gate.ledger.budget.withUsed_peak used
  refine ⟨balanced.ceiling_eq, ?_, room, rfl, ?_, ?_, ?_, balanced.waiting_le⟩
  · change used.toNat = (gate.ledger.record _ bytes).heldBytes
    rw [Ledger.heldBytes_record, total, balanced.used_eq]
  · change (gate.ledger.budget.withUsed used).peak ∈ used :: gate.history
    -- The new peak is the new counter or the old peak, which is in the old history.
    by_cases least : gate.ledger.budget.peak.toNat ≤ used.toNat
    · have same : (gate.ledger.budget.withUsed used).peak = used := by
        rw [<- UInt64.toNat_inj, raised, Nat.max_eq_right least]
      exact List.mem_cons.mpr (Or.inl same)
    · have same : (gate.ledger.budget.withUsed used).peak = gate.ledger.budget.peak := by
        rw [<- UInt64.toNat_inj, raised, Nat.max_eq_left (Nat.le_of_not_le least)]
      exact List.mem_cons_of_mem _ (same ▸ balanced.peak_mem)
  · intro value member
    change value.toNat ≤ (gate.ledger.budget.withUsed used).peak.toNat
    rw [raised]
    rcases List.mem_cons.mp member with same | earlier
    · exact same ▸ Nat.le_max_right _ _
    · exact Nat.le_trans (balanced.history_le value earlier) (Nat.le_max_left _ _)
  · intro value member
    rcases List.mem_cons.mp member with same | earlier
    · exact same ▸ room
    · exact balanced.history_le_ceiling value earlier

/-- No reservation is greater than the counter, so its return is never cut. -/
theorem held_le (balanced : Balanced ceiling gate) {index : Nat} {bytes : Word}
    (held : gate.ledger.reservations[index]? = some (some bytes)) :
    bytes.toNat ≤ gate.ledger.budget.used.toNat := by
  rw [balanced.used_eq]
  exact Ledger.le_heldBytes held

theorem giveBack (balanced : Balanced ceiling gate) {index : Nat} {bytes : Word}
    (held : gate.ledger.reservations[index]? = some (some bytes)) :
    Balanced ceiling
      (gate.moveTo
        { budget := gate.ledger.budget.release bytes
          reservations := gate.ledger.reservations.set index none }) := by
  have returned := release_used (balanced.held_le held)
  have rest := Ledger.heldBytes_release held (gate.ledger.budget.release bytes)
  have before := balanced.used_eq
  have bound := balanced.used_le
  have lower : (gate.ledger.budget.release bytes).used.toNat ≤
      gate.ledger.budget.used.toNat := by omega
  have counted := balanced.history_le gate.ledger.budget.used
    (List.mem_of_mem_head? (balanced.history_head ▸ rfl))
  refine ⟨balanced.ceiling_eq, ?_, ?_, rfl, ?_, ?_, ?_, balanced.waiting_le⟩
  · change (gate.ledger.budget.release bytes).used.toNat = Ledger.heldBytes
      ⟨gate.ledger.budget.release bytes, gate.ledger.reservations.set index none⟩
    omega
  · change (gate.ledger.budget.release bytes).used.toNat ≤ ceiling.toNat
    omega
  · exact List.mem_cons_of_mem _ balanced.peak_mem
  · intro value member
    change value.toNat ≤ gate.ledger.budget.peak.toNat
    rcases List.mem_cons.mp member with same | earlier
    · subst value
      exact Nat.le_trans lower counted
    · exact balanced.history_le value earlier
  · intro value member
    rcases List.mem_cons.mp member with same | earlier
    · subst value
      exact Nat.le_trans lower bound
    · exact balanced.history_le_ceiling value earlier

theorem ask (balanced : Balanced ceiling gate) (bytes : Word) :
    Balanced ceiling (gate.ask bytes).2 := by
  have asks := gate.ask_asks bytes
  have same := balanced.ceiling_eq
  cases answer : gate.ask bytes with
  | mk reply next =>
      rw [answer] at asks
      cases asks with
      | refused wide => exact balanced
      | panicked fits beyond => exact balanced
      | waits fits full =>
          apply balanced.withWaiting
          intro request member
          rcases List.mem_append.mp member with earlier | added
          · exact balanced.waiting_le request earlier
          · rw [List.mem_singleton.mp added, <- same]
            exact fits
      | granted used total room => exact balanced.grant total (same ▸ room)

theorem step (balanced : Balanced ceiling gate) {act : Act} {reply : Reply} {next : Gate}
    (stepped : gate.step act = some (reply, next)) : Balanced ceiling next := by
  cases act with
  | ask bytes =>
      rw [Gate.step, Option.some.injEq] at stepped
      have kept := balanced.ask bytes
      rw [stepped] at kept
      exact kept
  | askAgain index =>
      rcases Option.map_eq_some_iff.mp stepped with ⟨bytes, request, answer⟩
      have rest : Balanced ceiling { gate with waiting := gate.waiting.eraseIdx index } :=
        balanced.withWaiting fun other member =>
          balanced.waiting_le other (List.mem_of_mem_eraseIdx member)
      have kept := rest.ask bytes
      rw [answer] at kept
      exact kept
  | giveBack index =>
      rw [Gate.step] at stepped
      split at stepped
      · rename_i ledger returned
        rcases Ledger.held_of_release returned with ⟨bytes, held⟩
        rw [Ledger.release_eq_of_held held] at returned
        cases returned
        cases stepped
        exact balanced.giveBack held
      · contradiction

theorem follow {acts : List Act} (followed : (Gate.start ceiling).follow acts = some gate) :
    Balanced ceiling gate :=
  follow_induction (fun _ _ _ _ balanced stepped => balanced.step stepped)
    (Balanced.start ceiling) followed

end Balanced

/-! ## The budget over whole histories -/

variable {ceiling : Word} {gate : Gate}

/-- Without reservations nothing is in use. -/
theorem Balanced.used_eq_zero (balanced : Balanced ceiling gate)
    (dropped : forall place, place ∈ gate.ledger.reservations -> place = none) :
    gate.ledger.budget.used = 0 := by
  have nothing : gate.ledger.heldBytes = 0 := by
    unfold Ledger.heldBytes
    rw [List.sum_eq_zero_iff_forall_eq_nat]
    intro bytes member
    rcases List.mem_map.mp member with ⟨place, inside, rfl⟩
    rw [dropped place inside]
    rfl
  rw [<- UInt64.toNat_inj, balanced.used_eq, nothing]
  rfl

/-- Giving a held reservation back takes exactly its bytes from the counter. -/
theorem Balanced.step_giveBack (balanced : Balanced ceiling gate) {index : Nat}
    {bytes : Word} (held : gate.ledger.reservations[index]? = some (some bytes)) :
    bytes.toNat ≤ gate.ledger.budget.used.toNat ∧
      ∃ next, gate.step (.giveBack index) = some (.returned, next) ∧
        next.ledger.budget.used.toNat + bytes.toNat = gate.ledger.budget.used.toNat ∧
        next.ledger.budget.peak = gate.ledger.budget.peak := by
  have answer : gate.step (.giveBack index) = some (.returned,
      gate.moveTo ⟨gate.ledger.budget.release bytes,
        gate.ledger.reservations.set index none⟩) := by
    rw [Gate.step, Ledger.release_eq_of_held held]
  exact ⟨balanced.held_le held, _, answer, release_used (balanced.held_le held), rfl⟩

/-- A request is refused exactly if it exceeds the ceiling. -/
theorem Balanced.ask_refused_iff (balanced : Balanced ceiling gate) (bytes : Word)
    (cause : ScanError) (next : Gate) :
    gate.step (.ask bytes) = some (.refused cause, next) <->
      ceiling.toNat < bytes.toNat ∧ cause = .budgetExceeded bytes ceiling ∧ next = gate := by
  have asks := gate.ask_asks bytes
  rw [Gate.step, Option.some.injEq, <- balanced.ceiling_eq]
  constructor
  · intro answer
    rw [answer] at asks
    cases asks with
    | refused wide => exact ⟨wide, rfl, rfl⟩
  · rintro ⟨wide, rfl, rfl⟩
    cases answer : next.ask bytes with
    | mk reply later =>
        rw [answer] at asks
        cases asks with
        | refused => rfl
        | panicked fits => exact absurd wide (Nat.not_lt.mpr fits)
        | waits fits => exact absurd wide (Nat.not_lt.mpr fits)
        | granted used total room => omega

/-- Whoever waits can be served some day, so asking again is never refused. -/
theorem Balanced.askAgain_ne_refused (balanced : Balanced ceiling gate) (index : Nat)
    (cause : ScanError) (next : Gate) :
    gate.step (.askAgain index) ≠ some (.refused cause, next) := by
  intro stepped
  rcases Option.map_eq_some_iff.mp stepped with ⟨bytes, request, answer⟩
  have asks := ask_asks { gate with waiting := gate.waiting.eraseIdx index } bytes
  rw [answer] at asks
  cases asks with
  | refused wide =>
      rw [balanced.ceiling_eq] at wide
      exact absurd wide
        (Nat.not_lt.mpr (balanced.waiting_le bytes (List.mem_of_getElem? request)))

/-- Every reply but a return answers the request of the act to the ledger as it was. -/
theorem asks_of_step {act : Act} {reply : Reply} {next : Gate}
    (stepped : gate.step act = some (reply, next)) :
    reply = .returned ∨ ∃ (asked : Gate) (bytes : Word), gate.request? act = some bytes ∧
      asked.ledger = gate.ledger ∧ asked.Asks bytes (reply, next) := by
  cases act with
  | ask bytes =>
      have answer : gate.ask bytes = (reply, next) := Option.some.inj stepped
      exact Or.inr ⟨gate, bytes, rfl, rfl, answer ▸ gate.ask_asks bytes⟩
  | askAgain index =>
      rcases Option.map_eq_some_iff.mp stepped with ⟨bytes, request, answer⟩
      have asks := ask_asks { gate with waiting := gate.waiting.eraseIdx index } bytes
      rw [answer] at asks
      exact Or.inr
        ⟨{ gate with waiting := gate.waiting.eraseIdx index }, bytes, request, rfl, asks⟩
  | giveBack index =>
      rw [step] at stepped
      split at stepped
      · cases stepped
        exact Or.inl rfl
      · contradiction

/-- A request that is turned away leaves the ledger alone, and if it panics the
bytes in use and those it asks for are no word together. -/
theorem turnedAway {act : Act} {reply : Reply} {next : Gate}
    (stepped : gate.step act = some (reply, next)) :
    ((∃ cause, reply = .refused cause) -> next.ledger = gate.ledger) ∧
    (reply = .panicked -> next.ledger = gate.ledger ∧
      ∃ bytes, gate.request? act = some bytes ∧
        bytes.toNat ≤ gate.ledger.budget.ceiling.toNat ∧
        UInt64.size ≤ gate.ledger.budget.used.toNat + bytes.toNat) := by
  rcases asks_of_step stepped with returned | ⟨asked, bytes, request, same, asks⟩
  · simp [returned]
  · cases asks with
    | refused => exact ⟨fun _ => same, fun panics => by contradiction⟩
    | panicked fits beyond =>
        exact ⟨fun _ => same, fun _ => ⟨same, bytes, request, same ▸ fits, same ▸ beyond⟩⟩
    | waits => simp
    | granted => simp

/-- The sum of two numbers in the lower half of the words is a word. -/
theorem Balanced.step_ne_panicked (balanced : Balanced ceiling gate)
    (low : ceiling.toNat < Nat.pow 2 63) (act : Act) (next : Gate) :
    gate.step act ≠ some (.panicked, next) := by
  intro stepped
  rcases asks_of_step stepped with returned | ⟨asked, bytes, -, same, asks⟩
  · contradiction
  · cases asks with
    | panicked fits beyond =>
        rw [same, balanced.ceiling_eq] at fits
        rw [same] at beyond
        have used := balanced.used_le
        have size : UInt64.size = Nat.pow 2 63 + Nat.pow 2 63 := by decide
        omega

/-- Every history of requests and returns keeps the accounts of the budget.  The
counter is the sum of the reservations that are held, never above the ceiling;
the peak is the greatest value it ever had; a return takes back exactly what was
reserved.  A request is refused exactly if it exceeds the ceiling; a request that
is turned away changes nothing, and it panics only where its bytes and those in use
are no word together, which cannot be below half the range of a word. -/
theorem budget_accounts {acts : List Act}
    (followed : (Gate.start ceiling).follow acts = some gate) :
    gate.ledger.budget.used.toNat = gate.ledger.heldBytes ∧
    gate.ledger.budget.used.toNat ≤ ceiling.toNat ∧
    (gate.history.head? = some gate.ledger.budget.used ∧
      gate.ledger.budget.peak ∈ gate.history ∧
      (forall used, used ∈ gate.history ->
        used.toNat ≤ gate.ledger.budget.peak.toNat)) ∧
    gate.ledger.budget.peak.toNat ≤ ceiling.toNat ∧
    (forall index bytes, gate.ledger.reservations[index]? = some (some bytes) ->
      bytes.toNat ≤ gate.ledger.budget.used.toNat ∧
      ∃ next, gate.step (.giveBack index) = some (.returned, next) ∧
        next.ledger.budget.used.toNat + bytes.toNat = gate.ledger.budget.used.toNat ∧
        next.ledger.budget.peak = gate.ledger.budget.peak) ∧
    ((forall place, place ∈ gate.ledger.reservations -> place = none) ->
      gate.ledger.budget.used = 0) ∧
    (forall bytes cause next, gate.step (.ask bytes) = some (.refused cause, next) <->
      ceiling.toNat < bytes.toNat ∧ cause = .budgetExceeded bytes ceiling ∧ next = gate) ∧
    (forall index cause next,
      gate.step (.askAgain index) ≠ some (.refused cause, next)) ∧
    (forall act next, gate.step act = some (.panicked, next) ->
      next.ledger = gate.ledger ∧ ∃ bytes, gate.request? act = some bytes ∧
        bytes.toNat ≤ ceiling.toNat ∧
        UInt64.size ≤ gate.ledger.budget.used.toNat + bytes.toNat) ∧
    (ceiling.toNat < Nat.pow 2 63 ->
      forall act next, gate.step act ≠ some (.panicked, next)) := by
  have balanced := Balanced.follow followed
  refine ⟨balanced.used_eq, balanced.used_le, ?_, ?_, ?_, ?_, ?_, ?_, ?_, ?_⟩
  · exact ⟨balanced.history_head, balanced.peak_mem, balanced.history_le⟩
  · exact balanced.history_le_ceiling _ balanced.peak_mem
  · exact fun index bytes held => balanced.step_giveBack held
  · exact balanced.used_eq_zero
  · exact balanced.ask_refused_iff
  · exact balanced.askAgain_ne_refused
  · exact fun act next stepped => balanced.ceiling_eq ▸ (turnedAway stepped).2 rfl
  · exact balanced.step_ne_panicked

/-- A wait that ends when room is made, and a request that is refused. -/
theorem budget_accounts_of_waiting :
    ∃ gate, (Gate.start 100).follow
        [.ask 60, .ask 50, .ask 101, .giveBack 0, .askAgain 0] = some gate ∧
      gate.history = [50, 0, 60, 0] ∧ gate.ledger.budget.peak = 60 ∧
      gate.ledger.budget.used.toNat = gate.ledger.heldBytes := by
  have followed : ∃ gate, (Gate.start 100).follow
      [.ask 60, .ask 50, .ask 101, .giveBack 0, .askAgain 0] = some gate := ⟨_, rfl⟩
  rcases followed with ⟨gate, reached⟩
  have accounts := budget_accounts reached
  cases reached
  exact ⟨_, rfl, rfl, rfl, accounts.1⟩

end Gate

end Budget
end MemoryProbe
