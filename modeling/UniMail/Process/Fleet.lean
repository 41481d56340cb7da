import UniMail.Process.Tasks

/-!
# Processes that share a database

The REST server, the MCP server and the command line are processes of their own: each has its refresh
mutexes in memory, and all of them have the database file. In a `fleet` a call belongs to a process. One
that crashes is one whose calls step no more, and one that is started again is another one.

A storage operation is one statement, except on the flows: `insert` and `take` make two each, and the
connection is locked against the calls of the same process only. What the statements of other processes
leave in `oauth_flows` is therefore up to the environment (`FleetEnv.flows`).

What holds of the accounts and tokens in every run of a fleet holds across crashes and restarts, and in
every run of a process by itself (`run_fleet`).
-/

namespace UniMail

open Interaction

variable {aead : Aead} {chrono : Chrono} {key : Key} {α : Type}

/-- The database, and the refresh mutexes of each process. -/
structure FleetWorld where
  db : Db
  locks : ℕ → String → Option (Option ℕ)

/-- The environment of a step, and the flows that the process finds. -/
structure FleetEnv where
  env : Env
  flows : FlowTable

/-- What the process sees. -/
def FleetWorld.seenBy (w : FleetWorld) (p : ℕ) (flows : FlowTable) : World :=
  ⟨{ w.db with oauthFlows := flows }, w.locks p⟩

/-- After a step of the process. -/
def FleetWorld.after (w : FleetWorld) (p : ℕ) (v : World) : FleetWorld :=
  ⟨v.db, Function.update w.locks p v.locks⟩

abbrev FleetEvent (α : Type) := Event AppSig FleetWorld FleetEnv α

abbrev FleetCfg (α : Type) := Cfg AppSig FleetWorld α

/-- Processes with one database and one key; `process` says which one a call belongs to. -/
def fleet (aead : Aead) (chrono : Chrono) (key : Key) (process : ℕ → ℕ) :
    Machine AppSig FleetWorld FleetEnv where
  exec i o env w :=
    ((system aead chrono key).exec i o env.env (w.seenBy (process i) env.flows)).map
      fun x => (x.1, w.after (process i) x.2)

/-- A step of the fleet is one of a process on what it sees. -/
theorem fleet_exec {process : ℕ → ℕ} {i : ℕ} {o : Op} {env : FleetEnv} {r : o.Reply} {w w' : FleetWorld}
    (h : (fleet aead chrono key process).exec i o env w = some (r, w')) :
    ∃ v, (system aead chrono key).exec i o env.env (w.seenBy (process i) env.flows) = some (r, v) ∧
      w' = w.after (process i) v := by
  obtain ⟨⟨r', v⟩, hexec, heq⟩ := Option.map_eq_some_iff.mp h
  cases heq
  exact ⟨v, hexec, rfl⟩

/-- A fleet in which each call has a process of its own. -/
abbrev sampleFleet : Machine AppSig FleetWorld FleetEnv := fleet .tagged (.ofTable firstDay) sampleKey id

/-! ### One process -/

/-- The process with the number 0, and no other one. -/
def World.alone (w : World) : FleetWorld := ⟨w.db, Function.update (fun _ _ => none) 0 w.locks⟩

def Cfg.alone (c : Cfg AppSig World α) : FleetCfg α := ⟨c.world.alone, c.pool⟩

/-- The step, as one of a fleet. -/
def Event.alone (e : Event AppSig World Env α) : FleetEvent α :=
  ⟨Cfg.alone e.before, e.thread, ⟨e.env, e.before.world.db.oauthFlows⟩, e.op, e.reply, Cfg.alone e.after⟩

theorem seenBy_alone (w : World) : w.alone.seenBy 0 w.db.oauthFlows = w := by
  have hlocks : w.alone.locks 0 = w.locks := by simp [World.alone]
  unfold FleetWorld.seenBy
  rw [hlocks]
  rfl

theorem after_alone (w w' : World) : w.alone.after 0 w' = w'.alone := by
  unfold FleetWorld.after World.alone
  rw [Function.update_idem]

theorem exec_alone {i : ℕ} {o : Op} {env : Env} {r : o.Reply} {w w' : World}
    (h : (system aead chrono key).exec i o env w = some (r, w')) :
    (fleet aead chrono key fun _ => 0).exec i o ⟨env, w.db.oauthFlows⟩ w.alone = some (r, w'.alone) := by
  show Option.map _ ((system aead chrono key).exec i o env (w.alone.seenBy 0 w.db.oauthFlows)) = _
  rw [seenBy_alone, h, Option.map_some, after_alone]

/-- **A process by itself is a fleet.** -/
theorem run_fleet {c c' : Cfg AppSig World α} {es : List (Event AppSig World Env α)}
    (h : (system aead chrono key).Run c es c') :
    (fleet aead chrono key fun _ => 0).Run (Cfg.alone c) (es.map Event.alone) (Cfg.alone c') := by
  induction es generalizing c with
  | nil => exact congrArg Cfg.alone h
  | cons e es ih =>
    obtain ⟨rfl, ⟨k, hpool, hexec, hafter⟩, hrest⟩ := h
    exact ⟨rfl, ⟨k, hpool, exec_alone hexec, hafter⟩, ih hrest⟩

end UniMail
