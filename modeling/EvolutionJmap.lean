import EvolutionJmap.Mail.Walks
import EvolutionJmap.Client.Envelope
import EvolutionJmap.Client.Credentials
import EvolutionJmap.Client.ChunkedRun
import EvolutionJmap.Client.Transport
import EvolutionJmap.MailSync.KeywordPatch
import EvolutionJmap.Ui.Vacation
import EvolutionJmap.Ui.FiltersForm
import EvolutionJmap.Ui.ScriptLoad
import EvolutionJmap.CollectionSync.Children
import EvolutionJmap.CollectionSync.Pending
import EvolutionJmap.MailSync.FolderTree
import EvolutionJmap.MailSync.Dates
import EvolutionJmap.Vcard.Keys
import EvolutionJmap.Backends
import EvolutionJmap.ObjectSync.EditBase
import EvolutionJmap.CalSync.Zones
import EvolutionJmap.CalSync.GuestList
import EvolutionJmap.Ical.SeriesRule
import EvolutionJmap.BookSync.NamedParts
