import DocForms.Definition.Loading

/-! The definitions that the service comes with: an invoice, and the purchase order that it can
refer to. -/
namespace DocForms.Definition

/-- A field of a shipped definition, with what else it has. -/
private def shippedField (name label : String) (kind : FieldKind)
    (more : List (String × Value)) : Value :=
  .named ([("name", .text name), ("label", .text label), ("type", .text kind.name)] ++ more)

/-- What a field has that cannot be left out. -/
private def mandatory : String × Value := ("required", .bool true)

/-- A choice of a select field. -/
private def shippedChoice (value label : String) : Value :=
  .named [("value", .text value), ("label", .text label)]

/-- An invoice with a line for every item. -/
def invoice : Entries := Entries.ofNames [
  ("schema_version", .text usualVersion),
  ("code", .text "INVOICE"),
  ("name", .text "Invoice"),
  ("description", .text "Client invoice with one line per billed item"),
  ("fields", .list [
    shippedField "client_name" "Client" .text
      [mandatory, ("validation_rules", .named [("maxLength", .int 120)])],
    shippedField "issue_date" "Issue date" .date [mandatory],
    shippedField "currency" "Currency" .select
      [("options", .list [shippedChoice "EUR" "Euro", shippedChoice "USD" "US Dollar"])],
    shippedField "purchase_order" "Purchase order" .documentLink
      [("target_code", .text "PURCHASE_ORDER"), ("link_type", .text "reference")],
    shippedField "paid" "Paid" .checkbox []]),
  ("groups", .list [
    .named [
      ("name", .text "lines"),
      ("label", .text "Lines"),
      ("repeatable", .bool true),
      ("min_repeats", .int 1),
      ("max_repeats", .int 50),
      ("fields", .list [
        shippedField "description" "Description" .text [mandatory],
        shippedField "amount" "Amount" .number
          [mandatory, ("validation_rules", .named [("min", .int 0)])]])],
    .named [
      ("name", .text "billing"),
      ("label", .text "Billing address"),
      ("fields", .list [
        shippedField "street" "Street" .text [],
        shippedField "city" "City" .text []])]])]

/-- A purchase order. -/
def purchaseOrder : Entries := Entries.ofNames [
  ("schema_version", .text usualVersion),
  ("code", .text "PURCHASE_ORDER"),
  ("name", .text "Purchase order"),
  ("description", .text "Order placed by a client before invoicing"),
  ("fields", .list [
    shippedField "supplier" "Supplier" .text [mandatory],
    shippedField "order_date" "Order date" .date [mandatory],
    shippedField "notes" "Notes" .textarea []])]

/-- The shipped definitions in the order in which they are loaded. -/
def shipped : List File :=
  [⟨"invoice.yml", .ok invoice⟩, ⟨"purchase_order.yml", .ok purchaseOrder⟩]

/-- The workspace in which the shipped definitions are loaded. -/
def shippedWorkspace : Workspace := ((load formats true shipped).run.run {}).2

end DocForms.Definition
