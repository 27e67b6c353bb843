import ServiceTrace.Proofs.Ast.Visit
import ServiceTrace.Route.Client

/-!
# `ServiceTrace.Proofs.Route.Annotate` — what annotating does to a body

Annotating a body is a visit, so it changes marks and nothing else. It never changes a line, and it says
of each call either what the clients know about it or what the call said before. These two facts are
`Clients.Annotates`, and they leave no other choice for the annotated body.
-/

namespace ServiceTrace

/-- A body without its annotations. -/
def Stmt.unrouted (body : List Stmt) : List Stmt :=
  Stmt.remarkIn (fun marks => ⟨marks.line, none⟩) body

/-- `after` is `before` with annotations of routing calls added: without annotations the two are the
    same, and call by call the annotation is what the clients know about the call. A call that they know
    nothing about keeps the annotation it has. -/
structure Clients.Annotates (clients : Clients) (before after : List Stmt) : Prop where
  unrouted : Stmt.unrouted after = Stmt.unrouted before
  routes : (Stmt.callsIn after).map (·.route) =
    (Stmt.callsIn before).map fun c => (clients.routing? c).or c.route

namespace Clients

/-- The answers of a visitor without effects. -/
theorem mapM_pure_fst {α β : Type} (g : α → β) (l : List α) :
    ((l.mapM fun a => (pure (g a) : StateM Unit β)) ()).1 = l.map g := by
  rw [List.mapM_pure]
  rfl

/-- Annotating adds annotations and changes nothing else. -/
theorem annotates_annotate (clients : Clients) (body : List Stmt) :
    clients.Annotates body (clients.annotate body) where
  unrouted := Stmt.remarkIn_visitIn (fun _ _ => rfl) body ()
  routes := by
    have h := congrArg (fun m => (m ()).1) (Stmt.marks_visitIn
      (fun c => pure ⟨c.line, (clients.routing? c).or c.route⟩ : Visitor Unit) body)
    rw [mapM_pure_fst] at h
    calc (Stmt.callsIn (clients.annotate body)).map (·.route)
        = ((Stmt.callsIn (clients.annotate body)).map Call.marks).map (·.route) := by
          rw [List.map_map]; rfl
      _ = ((Stmt.callsIn body).map fun c => (⟨c.line, (clients.routing? c).or c.route⟩ :
            CallMarks)).map (·.route) := congrArg (List.map CallMarks.route) h
      _ = (Stmt.callsIn body).map fun c => (clients.routing? c).or c.route := by
          rw [List.map_map]; rfl

end Clients

end ServiceTrace
