import KeyedStore.Connector.Process
import KeyedStore.Plan.Basic

/-!
# Paging

The items of a plan are read page by page, each page after the key with which the one before it
ended, until no page follows. Where a number of items is enough, the reading ends as soon as it is
reached.
-/
namespace KeyedStore

/-- Asks for the page after a key. -/
def Plan.ask {σ α : Type} (plan : Plan) (table : String) (startKey : Item)
    (resume : Except ConnectorError ItemPage → σ) : Action σ α :=
  match plan with
  | query selection => .ask (.query { selection.toQuery table with startKey }) resume
  | scan selection => .ask (.scan { selection.toScan table with startKey }) resume

/-- The reading of the items of a plan. -/
inductive Paging where
  /-- Has read some items, and asks for those after a key. -/
  | reading (startKey : Item) (items : List Item)
  | finished (result : Except ConnectorError (List Item))

namespace Paging

def start : Paging := reading [] []

/-- Adds a page of items to those read before. -/
def receive (enough : Option Nat) (items : List Item) : Except ConnectorError ItemPage → Paging
  | .error error => finished (.error error)
  | .ok page =>
    let items := items ++ page.items
    match page.next with
    | some key => if enough.any (· ≤ items.length) then finished (.ok items) else reading key items
    | none => finished (.ok items)

def next (plan : Plan) (table : String) (enough : Option Nat) : Paging → Action Paging (List Item)
  | reading startKey items => plan.ask table startKey (receive enough items)
  | finished result => .finish result

end Paging

end KeyedStore
