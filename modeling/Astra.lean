import Astra.Main
import Astra.Nesting
import Astra.Prompt
import Astra.Proofs.Balance
import Astra.Proofs.Decisions
import Astra.Proofs.Snippets
import Astra.Proofs.Complaints
import Astra.Proofs.Calls
import Astra.Proofs.Sessions
import Astra.Proofs.Reports
import Astra.Proofs.Spellings
import Astra.Proofs.Closings
import Astra.Proofs.Overrides
import Astra.Proofs.Encoding
import Astra.Proofs.Configurations
import Astra.Proofs.Words
import Astra.Proofs.Blanks
import Astra.Proofs.Unmarked
import Astra.Proofs.Positions
import Astra.Proofs.Boxes
import Astra.Proofs.LineColors
import Astra.Proofs.ColorTexts
import Astra.Proofs.Keystrokes
import Astra.Proofs.Listings
import Astra.Proofs.Pairings
import Astra.Proofs.Progress
import Astra.Proofs.Rooms
